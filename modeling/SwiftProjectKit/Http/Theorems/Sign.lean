import SwiftProjectKit.Http.Until

namespace Http

namespace Parameters

variable {α : Type} [ToString α]

def isSigned (entry : String × AnyValue α) : Bool :=
  match entry.snd with
  | .string s => !s.isEmpty
  | .other _  => true

def pair (entry : String × AnyValue α) : String :=
  entry.fst ++ "=" ++ entry.snd.description

def sorted (parameters : Parameters α) : List (String × AnyValue α) :=
  parameters.entries.insertionSort fun e₁ e₂ => e₁.fst ≤ e₂.fst

def joined (entries : List (String × AnyValue α)) : String :=
  "&".intercalate (entries.map pair)

def canonical (parameters : Parameters α) : String :=
  joined (parameters.sorted.filter isSigned)

omit [ToString α] in
theorem lookup_of_mem {entries : List (String × AnyValue α)} {entry : String × AnyValue α}
    (hn : entries.map Prod.fst |>.Nodup) (hm : entry ∈ entries) :
    entries.lookup entry.fst = some entry.snd := by
  induction entries
  case nil => contradiction
  case cons hd tl hi =>
    have ⟨hd_not_mem, hn⟩ := List.nodup_cons.mp hn
    rcases List.mem_cons.mp hm with rfl | hm
    · exact List.lookup_cons_self
    · have hne : entry.fst ≠ hd.fst := ne_of_mem_of_not_mem (List.mem_map_of_mem hm) hd_not_mem
      rw [List.lookup_cons, beq_eq_false_iff_ne.mpr hne]
      exact hi hn hm

omit [ToString α] in
theorem value_of_mem_sorted {parameters : Parameters α} {entry : String × AnyValue α}
    (hm : entry ∈ parameters.sorted) : parameters.value entry.fst = some entry.snd :=
  lookup_of_mem parameters.nodup <| List.perm_insertionSort _ _ |>.mem_iff.mp hm

omit [ToString α] in
theorem keys_sorted (parameters : Parameters α) :
    parameters.keys.insertionSort (· ≤ ·) = parameters.sorted.map Prod.fst :=
  Eq.symm <| List.map_insertionSort (fun e₁ e₂ : String × AnyValue α => e₁.fst ≤ e₂.fst) (· ≤ ·)
    Prod.fst parameters.entries fun _ _ _ _ => Iff.rfl

theorem joined_isEmpty_iff {entries : List (String × AnyValue α)} :
    (joined entries).isEmpty ↔ entries = [] := by
  cases entries
  case nil => simp [joined]
  case cons hd tl => cases tl <;> simp [joined, pair]

theorem joined_concat {entries : List (String × AnyValue α)} {entry : String × AnyValue α}
    (h : entries ≠ []) : joined (entries ++ [entry]) = joined entries ++ "&" ++ pair entry := by
  rw [joined, List.map_append, String.intercalate_append_of_ne_nil (by simpa) (by simp)]
  simp [joined]

end Parameters

namespace HttpRequestUntil

open Parameters

variable {α : Type} [ToString α] {parameters : Parameters α}

theorem appendParameter_joined {entries : List (String × AnyValue α)} {key : String}
    {value : AnyValue α} :
    appendParameter (joined entries) key value = joined (entries ++ [(key, value)]) := by
  by_cases h : entries = []
  case pos => simp [appendParameter, h, joined, pair]
  case neg =>
    have h' := mt joined_isEmpty_iff.mp h
    simp [appendParameter, joined_concat h, h', pair, String.append_assoc]

theorem encryptKey_joined {done : List (String × AnyValue α)} {entry : String × AnyValue α}
    (hm : entry ∈ parameters.sorted) :
    encryptKey parameters (joined done) entry.fst = joined (done ++ [entry].filter isSigned) := by
  obtain ⟨key, value⟩ := entry
  simp only [encryptKey, value_of_mem_sorted hm]
  cases value
  case other    => simp [isSigned, List.filter_cons, appendParameter_joined]
  case string s => by_cases hs : s.isEmpty <;> simp [isSigned, hs, appendParameter_joined]

theorem foldl_encryptKey_joined {done todo : List (String × AnyValue α)} (hm : todo ⊆ parameters.sorted) :
    (todo.map Prod.fst).foldl (encryptKey parameters) (joined done) =
    joined (done ++ todo.filter isSigned) := by
  induction todo generalizing done
  case nil => simp
  case cons e todo hi =>
    have ⟨he, hm⟩ := List.cons_subset.mp hm
    rw [List.map_cons, List.foldl_cons, encryptKey_joined he, hi hm, List.append_assoc,
      ← List.filter_append, List.singleton_append]

theorem parametersString_eq_canonical (parameters : Parameters α) :
    parametersString parameters = parameters.canonical := by
  rw [parametersString, keys_sorted]
  have h : (parameters.sorted.map Prod.fst).foldl (encryptKey parameters) (joined []) = _ :=
    foldl_encryptKey_joined (List.Subset.refl _)
  exact h

theorem share_sign {appCurrentVersion : String} :
    (share appCurrentVersion).headers.value "sign" = none := by
  have h₁ : lowercased "h" ≠ lowercased "sign" := by decide
  have h₂ : lowercased "Accept" ≠ lowercased "sign" := by decide
  have h₃ : lowercased "Content-Type" ≠ lowercased "sign" := by decide
  simp [share, HTTPHeaders.ofDictionary, HTTPHeaders.value_update_of_ne h₁,
    HTTPHeaders.value_update_of_ne h₂, HTTPHeaders.value_update_of_ne h₃]

end HttpRequestUntil

inductive SignUse
  | writes
  | deletes
  | keeps
deriving DecidableEq

namespace Call

variable {α ε P T : Type} [ToString α] {conv : Conversions α P T} {u : HttpRequestUntil}

omit [ToString α] in
def signUse : Call α P → SignUse
  | request _ _ parameters method =>
    if !method.isURLEncoding then .deletes
    else if dictIsEmpty parameters then .keeps
    else .writes
  | requestEncodable .. => .deletes
  | upload ..           => .keeps

def sign (environment : HttpEnvironment) : Call α P → Option String
  | request _ _ (some parameters) method =>
    if method.isURLEncoding && !parameters.isEmpty then
      some (parameters.canonical ++ "&" ++ EncryptUtil.MD5Key environment)
    else
      none
  | _ => none

-- The `sign` header that a call does carry, where `held` is the one of the shared instance.
def signSent (environment : HttpEnvironment) (held : Option String) (c : Call α P) : Option String :=
  match c.signUse with
  | .writes  => c.sign environment
  | .deletes => none
  | .keeps   => held

theorem sign_isSome_iff (c : Call α P) (environment : HttpEnvironment) :
    (c.sign environment).isSome ↔ c.signUse = .writes := by
  rcases c with ⟨_, _, _ | parameters, method⟩ | _ | _
  case request.some =>
    cases hm : method.isURLEncoding <;> cases hp : parameters.isEmpty <;>
      simp [sign, signUse, dictIsEmpty, hm, hp]
  case request.none => cases hm : method.isURLEncoding <;> simp [sign, signUse, dictIsEmpty, hm]
  all_goals simp [sign, signUse]

@[simp]
theorem perform_environment (c : Call α P) :
    (c.perform (ε := ε) conv u).snd.environment = u.environment := by
  rcases c with ⟨_, _, _ | parameters, method⟩ | _ | _
  case request.some =>
    simp only [perform, HttpRequestUntil.request, HttpRequestUntil.parametersEncrypt]
    repeat' split
    all_goals rfl
  case request.none =>
    simp only [perform, HttpRequestUntil.request]
    split <;> rfl
  all_goals rfl

theorem perform_sign_held (c : Call α P) :
    (c.perform (ε := ε) conv u).snd.headers.value "sign" =
    c.signSent u.environment (u.headers.value "sign") := by
  rcases c with ⟨_, _, _ | parameters, method⟩ | _ | _
  case request.some =>
    cases hm : method.isURLEncoding
    case false =>
      simp [perform, HttpRequestUntil.request, hm, HttpRequestUntil.paramsEncrypt,
        HttpRequestUntil.deleteHeaders, signSent, signUse]
    case true =>
      cases hp : parameters.isEmpty <;>
        simp [perform, HttpRequestUntil.request, HttpRequestUntil.parametersEncrypt,
          HttpRequestUntil.updataHeaders, HttpRequestUntil.parametersString_eq_canonical,
          signSent, signUse, sign, dictIsEmpty, hm, hp]
  case request.none =>
    cases hm : method.isURLEncoding <;>
      simp [perform, HttpRequestUntil.request, HttpRequestUntil.parametersEncrypt,
        HttpRequestUntil.paramsEncrypt, HttpRequestUntil.deleteHeaders, signSent, signUse,
        dictIsEmpty, hm]
  case requestEncodable =>
    simp [perform, HttpRequestUntil.requestEncodable, HttpRequestUntil.paramsEncrypt,
      HttpRequestUntil.deleteHeaders, signSent, signUse]
  case upload => rfl

theorem perform_sign_sent (c : Call α P) :
    (c.perform (ε := ε) conv u).fst.headers.value "sign" =
    (c.perform (ε := ε) conv u).snd.headers.value "sign" := by
  cases c
  case request =>
    simp only [perform, HttpRequestUntil.request]
    split <;> rfl
  case requestEncodable => rfl
  case upload =>
    have h₁ : lowercased "Content-Disposition" ≠ lowercased "sign" := by decide
    have h₂ : lowercased "Content-Type" ≠ lowercased "sign" := by decide
    simp only [perform, HttpRequestUntil.upload, HTTPHeaders.value_update_of_ne h₁,
      HTTPHeaders.value_update_of_ne h₂, HTTPHeaders.value_ofDictionary_dictionary]

def SignsOwn (ε : Type) (conv : Conversions α P T) (u : HttpRequestUntil) (calls : List (Call α P)) : Prop :=
  (performAll (ε := ε) conv u calls).map (·.headers.value "sign") = calls.map (sign u.environment)

-- Between a call that writes the header and a call that leaves it alone, there is always one that
-- deletes it.
def NoStaleSign (calls : List (Call α P)) : Prop :=
  ∀ pre c mid c' post, calls = pre ++ c :: mid ++ c' :: post → c.signUse = .writes →
    c'.signUse = .keeps → ∃ d ∈ mid, d.signUse = .deletes

def DeletesFirst (calls : List (Call α P)) : Prop :=
  ∀ mid c' post, calls = mid ++ c' :: post → c'.signUse = .keeps → ∃ d ∈ mid, d.signUse = .deletes

omit [ToString α] in
theorem deletesFirst_cons {c : Call α P} {calls : List (Call α P)} :
    DeletesFirst (c :: calls) ↔ c.signUse ≠ .keeps ∧ (c.signUse = .deletes ∨ DeletesFirst calls) := by
  constructor
  case mp =>
    intro h
    refine ⟨fun hc => by simpa using h [] c calls rfl hc, ?_⟩
    by_contra! hd
    refine hd.right fun mid c' post he hk => ?_
    have ⟨d, hm, hd'⟩ := h (c :: mid) c' post (by simp [he]) hk
    rcases List.mem_cons.mp hm with rfl | hm
    · exact absurd hd' hd.left
    · exact ⟨d, hm, hd'⟩
  case mpr =>
    rintro ⟨hc, h⟩ mid c' post he hk
    cases mid
    case nil => simp_all
    case cons x mid =>
      have ⟨hx, he⟩ := List.cons_eq_cons.mp he
      rcases h with h | h
      · exact ⟨c, hx ▸ List.mem_cons_self, h⟩
      · have ⟨d, hm, hd⟩ := h mid c' post he hk
        exact ⟨d, List.mem_cons_of_mem _ hm, hd⟩

omit [ToString α] in
theorem noStaleSign_cons {c : Call α P} {calls : List (Call α P)} :
    NoStaleSign (c :: calls) ↔ (c.signUse = .writes → DeletesFirst calls) ∧ NoStaleSign calls := by
  constructor
  case mp =>
    intro h
    refine ⟨fun hc mid c' post he hk => h [] c mid c' post (by simp [he]) hc hk, ?_⟩
    exact fun pre d mid c' post he => h (c :: pre) d mid c' post (by simp [he])
  case mpr =>
    rintro ⟨hc, h⟩ pre d mid c' post he hd hk
    cases pre
    case nil =>
      have ⟨hd', he⟩ := List.cons_eq_cons.mp he
      exact hc (hd' ▸ hd) mid c' post he hk
    case cons x pre =>
      have ⟨_, he⟩ := List.cons_eq_cons.mp he
      exact h pre d mid c' post he hd hk

theorem signsOwn_cons {c : Call α P} {calls : List (Call α P)} :
    SignsOwn ε conv u (c :: calls) ↔
    c.signSent u.environment (u.headers.value "sign") = c.sign u.environment ∧
    SignsOwn ε conv (c.perform (ε := ε) conv u).snd calls := by
  simp only [SignsOwn, performAll, List.map_cons, List.cons_eq_cons, perform_sign_sent,
    perform_sign_held, perform_environment]

theorem signsOwn_iff {calls : List (Call α P)} :
    SignsOwn ε conv u calls ↔
    NoStaleSign calls ∧ (u.headers.value "sign" ≠ none → DeletesFirst calls) := by
  induction calls generalizing u
  case nil => simp [SignsOwn, performAll, NoStaleSign, DeletesFirst]
  case cons c calls hi =>
    have hs := c.sign_isSome_iff u.environment
    rw [signsOwn_cons, hi, perform_sign_held, noStaleSign_cons, deletesFirst_cons, signSent]
    cases hc : c.signUse <;> simp_all [Option.isSome_iff_ne_none]
    case writes => tauto
    case keeps  => tauto

-- The shared instance starts without a `sign` header, so a stale one can only be that of an
-- earlier call.
theorem share_signsOwn_iff (conv : Conversions α P T) (appCurrentVersion : String)
    (calls : List (Call α P)) :
    SignsOwn ε conv (HttpRequestUntil.share appCurrentVersion) calls ↔ NoStaleSign calls := by
  simp [signsOwn_iff, HttpRequestUntil.share_sign]

instance {calls : List (Call α P)} : Decidable (SignsOwn ε conv u calls) :=
  inferInstanceAs <| Decidable (_ = _)

theorem upload_not_signsOwn :
    ¬SignsOwn Unit .codeOnly (.share "1.0.0") [
      .request .main "/user/getInfo" (some ⟨[("id", .string "1")], by decide⟩) .get,
      .upload "/user/avatar" [0xff]
    ] := by
  decide

end Call
end Http
