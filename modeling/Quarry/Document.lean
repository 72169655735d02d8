/-
# Documents

Documents are kept with their dates as canonical timestamps.

* `writeDocument` — a document as it is kept.
* `readDocument` — a kept document as clients see it.

A mapping names the dates. Fields that are absent or `null` are left alone.
-/
import Quarry.Error
import Quarry.Template.Basic

namespace Quarry

open Quarry.Date Quarry.Template

/-- Converts the date fields of an object, in the order of their names. -/
def convertFields (convert : String → DateFormat → Json → Except FormatError Json) :
    Named DateFormat → Named Json → Except FormatError (Named Json)
  | [], fields => .ok fields
  | (name, format) :: rest, fields =>
    match fields.get? name with
    | none | some .null => convertFields convert rest fields
    | some v => do
      let w ← convert name format v
      convertFields convert rest (fields.insert name w)

/-- Converts the date fields of a document under a mapping. -/
def convertDocument (convert : String → DateFormat → Json → Except FormatError Json)
    (mapping : Option Mapping) (document : Json) : Except Error Json :=
  match mapping with
  | none => .ok document
  | some m =>
    match document with
    | .object fields => ((convertFields convert m.formats fields).mapError .format).map .object
    | _ => .error (.decode .notAnObject)

/-- Converts one field for keeping. -/
def writeField (_ : String) (format : DateFormat) (v : Json) : Except FormatError Json :=
  format.toCanonical v

/-- Converts one kept field back. -/
def readField (name : String) (format : DateFormat) (v : Json) : Except FormatError Json :=
  if format.isPassthrough then .ok v
  else match v with
    | .string text => format.ofCanonical text
    | _ => .error (.notText name v.text)

/-- A document as it is kept. -/
def writeDocument : Option Mapping → Json → Except Error Json := convertDocument writeField

/-- A kept document as clients see it. -/
def readDocument : Option Mapping → Json → Except Error Json := convertDocument readField

end Quarry
