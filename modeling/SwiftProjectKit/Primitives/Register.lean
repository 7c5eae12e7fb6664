import SwiftProjectKit.Primitives.Run

-- What is read from the state of a system some of whose events overwrite it.
namespace Register

variable {σ ε ν : Type*} {step : σ → ε → Option σ} {inv : σ → Prop} {read : σ → ν} {write : ε → Option ν}
variable {s s' : σ} {e : ε} {es es' : List ε} {v : ν}

def last (write : ε → Option ν) (v : ν) (es : List ε) : ν :=
  es.filterMap write |>.getLast?.getD v

@[simp]
theorem last_nil : last write v [] = v :=
  rfl

theorem last_cons : last write v (e :: es) = last write ((write e).getD v) es := by
  cases h : write e
  case none => rw [last, List.filterMap_cons_none h, Option.getD_none, last]
  case some => rw [last, List.filterMap_cons_some h, List.getLast?_cons, Option.getD_some, Option.getD_some, last]

theorem last_map {μ : Type*} {w : ε → Option μ} {f : μ → ν} :
    last (fun e => (w e).map f) v es = (es.filterMap w).getLast?.elim v f := by
  rw [last, ← List.map_filterMap, List.getLast?_map]
  cases (es.filterMap w).getLast? <;> rfl

theorem read_exec (h₀ : inv s) (h : Run.exec step s es = some s')
    (hstep : ∀ {s e s'}, inv s → step s e = some s' → inv s' ∧ read s' = (write e).getD (read s)) :
    read s' = last write (read s) es := by
  induction es generalizing s
  case nil => rw [last_nil, Option.some.inj h]
  case cons e es hi =>
    have ⟨s₁, hs, h⟩ := Run.exec_cons_eq_some.mp h
    have ⟨h₁, hr⟩ := hstep h₀ hs
    rw [hi h₁ h, hr, last_cons]

theorem read_exec' (h : Run.exec step s es = some s')
    (hstep : ∀ {s e s'}, step s e = some s' → read s' = (write e).getD (read s)) : read s' = last write (read s) es :=
  have h₀ : (fun _ : σ => True) s := trivial
  read_exec h₀ h fun _ hs => ⟨trivial, hstep hs⟩

theorem read_eq {μ : Type*} {write : ε → Option μ} (read : σ → ν) (hn : ∀ e ∈ es, write e = none)
    (h : Run.exec step s es = some s')
    (hstep : ∀ {s e s'}, write e = none → step s e = some s' → read s' = read s) : read s' = read s := by
  induction es generalizing s
  case nil => rw [Option.some.inj h]
  case cons e es hi =>
    have ⟨he, hn⟩ := List.forall_mem_cons.mp hn
    have ⟨_, hs, h⟩ := Run.exec_cons_eq_some.mp h
    exact hi hn h |>.trans <| hstep he hs

end Register
