/-!
Values of a settings document: what a text of nested lists and records can
hold.
-/

namespace BlockLink

/-- A value of a document. -/
inductive Document where
  | null
  | bool (value : Bool)
  /-- A whole number that fits into 64 bits, with or without a sign. -/
  | integer (value : Int)
  | float (value : Float)
  | string (value : String)
  | list (elements : List Document)
  /-- Named values, each name once. -/
  | record (fields : List (String × Document))

namespace Document

instance : Inhabited Document := ⟨null⟩

/-- The value that a list of fields holds under a name. -/
def lookup? (fields : List (String × Document)) (name : String) : Option Document :=
  (fields.find? fun field => field.1 = name).map Prod.snd

/-- The value of a record under a name. -/
def field? (document : Document) (name : String) : Option Document :=
  match document with
  | record fields => lookup? fields name
  | _ => none

/-- The fields with one more value. A value that the name held before is replaced. -/
def insertField (fields : List (String × Document)) (name : String) (value : Document) :
    List (String × Document) :=
  (fields.filter fun field => field.1 ≠ name) ++ [(name, value)]

end Document

end BlockLink
