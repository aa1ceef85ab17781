import Ulpf.Drift.ReportDocuments
import Ulpf.Shadow.Isolation
import Ulpf.SourceProfiler.MixedValues

/-!
Which log lines stop the parsers of the profiler, and with them a shadow run or a structural
assessment.
-/

namespace Ulpf.Shadow

open Ulpf.Lib
open Ulpf.Python
open Ulpf.SourceProfiler

variable {u : Unicode}

section Scan

/-- The entry of an event that the check of the bus looks into is a dictionary. -/
def MarkReadable (ev : Event) : Prop :=
  ((ev.fields.get? (.str "_shadow")).getD (.obj [])).isObj = true

/-- An event whose entry is no dictionary comes only after one that carries the mark. -/
def Scannable (events : List Event) : Prop :=
  ∀ before ev after, events = before ++ ev :: after →
    MarkReadable ev ∨ ∃ marked ∈ before, isShadowMarked marked = .ok true

end Scan

section Runs

/-- A line that a spec can be applied to: it parses under the hint of the spec, and the definitions
of the fields that it has can be used. -/
def Fits (u : Unicode) (spec : PyVal) (line : String) : Prop :=
  (∃ hint, specHint u spec = .ok hint ∧ Parses u line hint) ∧
    ∀ record, extractFields u line spec = .ok record →
      ∀ field ∈ record.entries, FieldUsable (spec.memberD "fields" (.obj [])) field

variable {ticks : ℕ → Ticks} {samples : List String} {activeSpec candidateSpec : PyVal}
  {sourceId : String} {bus : Option (List Event)} {publishActive : Bool}

end Runs

end Ulpf.Shadow

namespace Ulpf.SourceProfiler

open Ulpf.Lib
open Ulpf.Python

variable {u : Unicode} {mask : String → String} {sampleLimit : ℕ} {logs : List String}
  {batch : BatchFormat} {headers : Option (List String)}

end Ulpf.SourceProfiler

namespace Ulpf.Pipeline

open Ulpf.Lib
open Ulpf.Python
open Ulpf.Drift
open Ulpf.Shadow
open Ulpf.SelfHealing (Instant)
open Ulpf.SourceProfiler hiding Comparable

end Ulpf.Pipeline
