/-
# Templates

A template says which fields of the documents of some indices are dates, and how clients write
them.

* `expandStars` — a pattern with stars as a regular expression.
* `Mapping` — the pattern and the date fields of a template.
* `Template` — a mapping under a name, with the regular expression of its pattern.
* `TemplateRequest.decode` — reading what a client sends.
* `Mapping.ofTexts` — reading what a store keeps.
-/
import Quarry.Date.Format
import Quarry.Json.Decode
import Quarry.Template.Reader

namespace Quarry

namespace Template

open Quarry.Date Quarry.Json

/-! ## Patterns -/

/-- A pattern as a regular expression: a star is any text, and everything else is left as it is. -/
def expandStars (pattern : String) : String :=
  String.ofList (pattern.toList.flatMap fun c => if c = '*' then ['.', '*'] else [c])

/-! ## Mappings -/

/-- What a client says of a field. -/
structure FieldMapping where
  type : String := ""
  format : String := ""
  deriving DecidableEq, Repr

/-- The type of the fields that matter. -/
def dateType : String := "date"

/-- A pattern with the fields that are dates. -/
structure Mapping where
  /-- The regular expression for the names of indices. -/
  pattern : String
  /-- The names of the formats of the date fields. -/
  dates : Named String
  deriving DecidableEq, Repr

namespace Mapping

/-- The mapping of some properties, of which only dates are kept. -/
def ofProperties (pattern : String) (properties : Named FieldMapping) : Mapping where
  pattern := pattern
  dates := Named.mapValues FieldMapping.format
    (properties.filter fun (_, m) => m.type == dateType)

/-- The formats of the date fields. -/
def formats (m : Mapping) : Named DateFormat := m.dates.mapValues DateFormat.ofName

/-- The format of a field, if it is a date. -/
def format? (m : Mapping) (field : String) : Option DateFormat := m.formats.get? field

/-- A date field as JSON. -/
def fieldJson (format : String) : Json :=
  .object (("type", .string dateType) ::
    if format.isEmpty then [] else [("format", .string format)])

/-- The date fields as JSON. -/
def propertiesJson (m : Mapping) : Json := .object (m.dates.mapValues fieldJson)

/-- A mapping as JSON. -/
def toJson (m : Mapping) : Json :=
  .object [("index_patterns", .string m.pattern), ("properties", m.propertiesJson)]

end Mapping

end Template

/-! ## Templates -/

/-- A mapping under a name. -/
structure Template where
  name : String
  mapping : Template.Mapping
  regex : Template.Regex
  regex_eq : Template.Regex.ofText? mapping.pattern = some regex

namespace Template

open Quarry.Json

/-- The template of a mapping whose pattern can be read. -/
def ofMapping? (name : String) (mapping : Mapping) : Option Template :=
  match h : Regex.ofText? mapping.pattern with
  | some regex => some ⟨name, mapping, regex, h⟩
  | none => none

/-- Whether a template applies to an index. -/
def applies (t : Template) (index : String) : Bool := t.regex.isMatch index

/-! ## Requests -/

/-- What a client sends to set up a template. -/
structure TemplateRequest where
  pattern : String := ""
  properties : Named FieldMapping := []

/-- A field as a record. -/
def FieldMapping.record : Record FieldMapping where
  name := "FieldMapping"
  fields := ["type", "format"]
  required := []
  start := {}
  set name o m :=
    match name with
    | "type" => (Decoder.string o).map fun v => { m with type := v }
    | _ => (Decoder.string o).map fun v => { m with format := v }

/-- The properties of the fields as a record. -/
def propertiesRecord : Record (Named FieldMapping) where
  name := "TemplateMappings"
  fields := ["properties"]
  required := []
  start := []
  set _ o _ := Decoder.namedOf FieldMapping.record.decode o

/-- Reads one pattern, or the first of several. The value is read in full before it is looked
at. -/
def decodePattern : Decoder String := fun o => do
  let o ← orMalformed o.buffered
  match Decoder.string o, Decoder.list Decoder.string o with
  | .ok pattern, _ => return pattern
  | .error _, .ok (pattern :: _) => return pattern
  | .error _, .ok [] => throw .noPattern
  | .error _, .error _ => throw (.noVariant "Patterns")

namespace TemplateRequest

/-- A request as a record; its settings have no effect. -/
def record : Record TemplateRequest where
  name := "CreateTemplateRequest"
  fields := ["index_patterns", "settings", "mappings"]
  required := ["index_patterns"]
  start := {}
  set name o r :=
    match name with
    | "index_patterns" => (decodePattern o).map fun v => { r with pattern := v }
    | "settings" => (Decoder.optional Decoder.anything o).map fun _ => r
    | _ => (propertiesRecord.decode o).map fun v => { r with properties := v }

/-- Reads a request. -/
def decode : Decoder TemplateRequest := record.decode

/-- Reads the body of a request. -/
def ofBytes (body : List UInt8) : Except DecodeError TemplateRequest := decodeText decode body

/-- The mapping that a request asks for. -/
def mapping (r : TemplateRequest) : Mapping := .ofProperties (expandStars r.pattern) r.properties

end TemplateRequest

/-! ## Kept mappings -/

/-- The mapping with a regular expression and with the date fields that a text writes. -/
def Mapping.ofTexts (pattern properties : String) : Except DecodeError Mapping :=
  (decodeText (Decoder.namedOf FieldMapping.record.decode) (Text.Utf8.encode properties)).map
    (Mapping.ofProperties pattern)

end Template

end Quarry
