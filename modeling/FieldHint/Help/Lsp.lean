import FieldHint.Help.Signature
import FieldHint.Json.Basic

/-!
# Signature help as JSON

The shape of the Language Server Protocol. What is absent has no member; an empty comment counts
as absent.
-/

namespace FieldHint

/-- A member of an object. -/
def Json.entry (key : String) (value : Json) : Text × Json := (key.toList, value)

/-- A number without a sign. -/
def Json.nat (n : Nat) : Json := .int n

/-- The member that documents something. -/
def Json.documentation (doc : Option Text) : List (Text × Json) :=
  match doc.bind Text.nonempty? with
  | none => []
  | some doc =>
    [Json.entry "documentation"
      (.object [Json.entry "kind" (.string "markdown".toList), Json.entry "value" (.string doc)])]

/-- A parameter as JSON. -/
def Parameter.toJson (p : Parameter) : Json :=
  .object (Json.entry "label" (.array [.nat p.start, .nat p.stop]) :: Json.documentation p.doc)

/-- A signature as JSON. -/
def Signature.toJson (s : Signature) : Json :=
  .object
    ([Json.entry "label" (.string s.label),
      Json.entry "parameters" (.array (s.parameters.map Parameter.toJson))] ++
      Json.documentation s.doc)

/-- Signature help as JSON. -/
def SignatureHelp.toJson (h : SignatureHelp) : Json :=
  .object
    ([Json.entry "signatures" (.array (h.signatures.map Signature.toJson)),
      Json.entry "activeSignature" (.nat h.activeSignature)] ++
      (h.activeParameter.map fun n => Json.entry "activeParameter" (.nat n)).toList)

end FieldHint
