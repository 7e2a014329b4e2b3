import CardArena.Catalog.Check
import CardArena.Wire.Catalog
import CardArena.Wire.Config

/-!
Whole documents: a catalog and settings out of their text.
-/

namespace CardArena

/-- Reads a value out of the text of a document. -/
def Json.decodeText (decode : Decoder α) (text : String) : Decoded α :=
  match Json.ofText? text with
  | none => .error .syntaxError
  | some j => decode j

/-- Why a document gives no catalog. -/
inductive CatalogError where
  | unreadable (error : DecodeError)
  | defective (defect : Defect)
deriving DecidableEq, Repr, Inhabited

namespace CatalogError

/-- The error in words. -/
def message : CatalogError → String
  | .unreadable error => "Parse error: " ++ error.message
  | .defective defect => defect.message

end CatalogError

/-- The checked catalog of a draft that has been read. -/
def Catalog.ofDecoded (draft : Decoded Draft) : Except CatalogError Catalog :=
  match draft with
  | .error error => .error (.unreadable error)
  | .ok draft => (ofDraft draft).mapError .defective

/-- The catalog of a document. -/
def Catalog.ofText (text : String) : Except CatalogError Catalog :=
  ofDecoded (Json.decodeText Draft.ofJson text)

/-- The settings of a document. -/
def Config.ofText (text : String) : Decoded Config :=
  Json.decodeText ofJson text

end CardArena
