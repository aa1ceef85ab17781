import Ulpf.Lib.Escaping

/-!
Messages of the Common Event Format as they are written: a header of escaped fields, each
before a pipe, and an extension.
-/

namespace Ulpf.Formats

open Ulpf.Lib.Text

/-- What is escaped in a header. -/
def cefHeaderCode (c : Char) : Option Char := if c = '\\' ∨ c = '|' then some c else none

/-- The six texts between the version and the extension. -/
structure CefHeader where
  deviceVendor : String
  deviceProduct : String
  deviceVersion : String
  deviceEventClassId : String
  name : String
  severity : String

namespace CefHeader

/-- The fields of a header, in their order. -/
def texts (header : CefHeader) : List String :=
  [header.deviceVendor, header.deviceProduct, header.deviceVersion, header.deviceEventClassId,
    header.name, header.severity]

/-- The fields of a header under the keys that they are read into. -/
def entries (header : CefHeader) : List (String × String) :=
  ["device_vendor", "device_product", "device_version", "device_event_class_id", "name",
    "severity"].zip header.texts

end CefHeader

/-- The fields of a header, each escaped and ended by a pipe. -/
def cefFields (texts : List String) : List Char :=
  texts.flatMap fun text => escape cefHeaderCode text.toList ++ ['|']

/-- A message as CEF writes it. -/
def cefMessage (version : ℕ) (header : CefHeader) (extension : String) : String :=
  "CEF:" ++ numeral version ++ "|" ++ String.ofList (cefFields header.texts) ++ extension

/-- What is escaped in a value of an extension. -/
def cefValueCode (c : Char) : Option Char :=
  if c = '\\' ∨ c = '=' then some c
  else if c = '\n' then some 'n'
  else if c = '\r' then some 'r'
  else none

/-- A key and its value, of which the value is escaped. -/
def cefPair (entry : String × String) : List Char :=
  entry.1.toList ++ '=' :: escape cefValueCode entry.2.toList

/-- The pairs of an extension, with a blank between two. -/
def cefExtension (attributes : List (String × String)) : List Char :=
  [' '].intercalate (attributes.map cefPair)

theorem cefExtension_singleton (entry : String × String) : cefExtension [entry] = cefPair entry :=
  List.intercalate_singleton

theorem cefExtension_cons_cons (entry next : String × String)
    (attributes : List (String × String)) :
    cefExtension (entry :: next :: attributes) =
      cefPair entry ++ ' ' :: cefExtension (next :: attributes) := by
  rw [cefExtension, List.map_cons, List.map_cons, List.intercalate_cons_cons, List.append_assoc]
  rfl

theorem exists_cefExtension_cons (entry : String × String) (attributes : List (String × String)) :
    ∃ t, cefExtension (entry :: attributes) = entry.1.toList ++ '=' :: t := by
  cases attributes with
  | nil => exact ⟨_, cefExtension_singleton entry⟩
  | cons next attributes =>
      refine ⟨escape cefValueCode entry.2.toList ++ ' ' :: cefExtension (next :: attributes), ?_⟩
      rw [cefExtension_cons_cons, cefPair, List.append_assoc, List.cons_append]

theorem toList_cefMessage (version : ℕ) (header : CefHeader) (extension : String) :
    (cefMessage version header extension).toList =
      "CEF:".toList ++ ((numeral version).toList ++ '|' :: (cefFields header.texts ++
        extension.toList)) := by
  simp [cefMessage]

theorem cefFields_cons (text : String) (texts : List String) :
    cefFields (text :: texts) =
      escape cefHeaderCode text.toList ++ '|' :: cefFields texts := by
  simp [cefFields]

theorem getLast?_cefFields (header : CefHeader) : (cefFields header.texts).getLast? = some '|' := by
  have hlast : cefFields header.texts = cefFields (header.texts.dropLast) ++
      escape cefHeaderCode header.severity.toList ++ ['|'] := by
    simp [cefFields, CefHeader.texts]
  rw [hlast, List.getLast?_concat]

theorem trim_cefMessage {p : Char → Bool} (hfirst : p 'C' = false) (hpipe : p '|' = false)
    (version : ℕ) (header : CefHeader) (extension : String) :
    trim p (cefMessage version header extension).toList =
      "CEF:".toList ++ ((numeral version).toList ++ '|' :: (cefFields header.texts ++
        extension.toList.rdropWhile p)) := by
  have hsplit : (cefMessage version header extension).toList =
      ("CEF:".toList ++ ((numeral version).toList ++ '|' :: cefFields header.texts)) ++
        extension.toList := by
    rw [toList_cefMessage]
    simp
  have hlast : ("CEF:".toList ++ ((numeral version).toList ++
      '|' :: cefFields header.texts)).getLast? = some '|' := by
    rw [List.getLast?_append, List.getLast?_append, List.getLast?_cons, getLast?_cefFields]
    rfl
  rw [hsplit, trim_append]
  · simp
  · simp
  · intro c hc
    cases hc
    exact hfirst
  · intro c hc
    rw [hlast] at hc
    cases hc
    exact hpipe

end Ulpf.Formats
