/-
# Routes

* `Target` — what a path leads to.
* `Target.ofPath?` — the target of a path. A fixed word is preferred to the name of an index.
* `Target.methods` — the methods that a target takes.
-/
import Quarry.Http.Path

namespace Quarry.Http

/-! ## Targets -/

/-- What a path leads to. -/
inductive Target where
  | root
  | health
  | catalog
  | templates
  | template (name : Segment)
  /-- Several searches, in an index if they name none. -/
  | multiSearch (index : Option Segment)
  /-- Several actions, on an index if they name none. -/
  | bulk (index : Option Segment)
  | index (name : Segment)
  | document (index : Segment)
  | creation (index : Segment)
  | search (index : Segment)
  | mapping (index : Segment)
  deriving DecidableEq, Repr

namespace Target

/-- What a word after the name of an index leads to. -/
def ofWord? (index : Segment) : String → Option Target
  | "_msearch" => some (.multiSearch (some index))
  | "_bulk" => some (.bulk (some index))
  | "_doc" => some (.document index)
  | "_create" => some (.creation index)
  | "_search" => some (.search index)
  | "_mapping" => some (.mapping index)
  | _ => none

/-- What a path of one segment leads to. -/
def ofOne (s : Segment) : Target :=
  match s.written with
  | "_template" => .templates
  | "_msearch" => .multiSearch none
  | "_bulk" => .bulk none
  | _ => .index s

/-- What a path of two segments leads to. -/
def ofTwo? (s t : Segment) : Option Target :=
  match s.written, t.written with
  | "_cluster", "health" => some .health
  | "_cat", "indices" => some .catalog
  | "_template", _ => some (.template t)
  | _, word => ofWord? s word

/-- What segments lead to. -/
def ofSegments? : List Segment → Option Target
  | [] => some .root
  | [s] => some (ofOne s)
  | [s, t] => ofTwo? s t
  | _ => none

/-- What a path leads to. -/
def ofPath? (path : String) : Option Target := (segments? path).bind ofSegments?

/-! ## Methods -/

/-- The methods that a target takes, in alphabetical order. What can be got can also be asked for
without its body. -/
def methods : Target → List String
  | .root => ["GET", "HEAD"]
  | .health => ["GET", "HEAD"]
  | .catalog => ["GET", "HEAD"]
  | .templates => ["GET", "HEAD"]
  | .template _ => ["GET", "HEAD", "PUT"]
  | .multiSearch _ => ["GET", "HEAD", "POST"]
  | .bulk _ => ["POST"]
  | .index _ => ["PUT"]
  | .document _ => ["POST", "PUT"]
  | .creation _ => ["POST"]
  | .search _ => ["POST"]
  | .mapping _ => ["GET", "HEAD"]

end Target

end Quarry.Http
