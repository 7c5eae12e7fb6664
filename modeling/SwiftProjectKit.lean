import SwiftProjectKit.Primitives.Run
import SwiftProjectKit.Primitives.Heap
import SwiftProjectKit.Http.Theorems.Sign
import SwiftProjectKit.Http.Theorems.Collision
import SwiftProjectKit.Http.Theorems.Settle
import SwiftProjectKit.Http.Theorems.Version
import SwiftProjectKit.Picker.Theorems.Coherence
import SwiftProjectKit.Picker.Theorems.Index
import SwiftProjectKit.Picker.Theorems.Paths
import SwiftProjectKit.Picker.Theorems.Limits
import SwiftProjectKit.Picker.Theorems.Exclusive
import SwiftProjectKit.Picker.Theorems.Delivery
import SwiftProjectKit.RichText.Theorems.Reset
import SwiftProjectKit.RichText.Theorems.Undo
import SwiftProjectKit.Publish.Theorems.Edits
import SwiftProjectKit.Publish.Theorems.Video
import SwiftProjectKit.Navigation.Theorems.Configuration
import SwiftProjectKit.Camera.Theorems.Recording
import SwiftProjectKit.Camera.Theorems.Session
import SwiftProjectKit.Camera.Theorems.Files
import SwiftProjectKit.Camera.Theorems.Placement
import SwiftProjectKit.Camera.Theorems.Label
import SwiftProjectKit.Camera.Theorems.Export
import SwiftProjectKit.Camera.Theorems.Screen
import SwiftProjectKit.Promise.Theorems.Box
import SwiftProjectKit.Promise.Theorems.Boxes
import SwiftProjectKit.Promise.Theorems.Requests
import SwiftProjectKit.Picker.Theorems.NextButton
import SwiftProjectKit.Picker.Theorems.CellState
import SwiftProjectKit.Picker.Theorems.CellImage
import SwiftProjectKit.Picker.Theorems.Duration
import SwiftProjectKit.RichText.Theorems.Formatting
import SwiftProjectKit.RichText.Theorems.Buffer
import SwiftProjectKit.RichText.Theorems.Toggle
import SwiftProjectKit.RichText.Theorems.Caret
import SwiftProjectKit.RichText.Theorems.Restyle
import SwiftProjectKit.RichText.Theorems.Snapping
import SwiftProjectKit.RichText.Theorems.Partition
import SwiftProjectKit.RichText.Theorems.Selection
import SwiftProjectKit.RichText.Theorems.Typing
import SwiftProjectKit.RichText.Theorems.Balance
import SwiftProjectKit.RichText.Theorems.Buttons
import SwiftProjectKit.RichText.Theorems.Link
import SwiftProjectKit.RichText.Theorems.Wheel
import SwiftProjectKit.RichText.Theorems.FontStyle
import SwiftProjectKit.Badge.Theorems.Display
import SwiftProjectKit.Search.Theorems.Agree
import SwiftProjectKit.Dates.Theorems.Month
import SwiftProjectKit.Dates.Theorems.Today
import SwiftProjectKit.Dates.Theorems.Elapsed
import SwiftProjectKit.Decimals.Theorems.Bracket
import SwiftProjectKit.Decimals.Theorems.Rounding
import SwiftProjectKit.Images.Theorems.Compress
import SwiftProjectKit.Images.Theorems.Thumbnail
import SwiftProjectKit.Strings.Theorems.Strip
import SwiftProjectKit.Strings.Theorems.Substring
import SwiftProjectKit.Strings.Theorems.Percent
import SwiftProjectKit.Colors.Theorems.Agree
import SwiftProjectKit.Device.Theorems.Version
