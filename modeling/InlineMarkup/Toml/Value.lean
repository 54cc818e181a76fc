import InlineMarkup.Text.Digits

/-!
# TOML values

The values of a TOML document.  Floats and moments (dates, times) are kept as they are written,
since no setting is one.  A table keeps its keys in the order of their appearance, each key once.
-/

namespace InlineMarkup.Toml

/-- A value. -/
inductive Value where
  | string (content : Text)
  | integer (value : Int)
  | boolean (value : Bool)
  | float (literal : Text)
  | moment (literal : Text)
  | array (items : List Value)
  | table (entries : List (Text × Value))
deriving Repr, Inhabited

/-- Why a text has no value. -/
inductive Fault where
  /-- The text is not TOML. -/
  | malformed
  /-- An integer is not read. -/
  | digits (f : DigitFault)
deriving DecidableEq, Repr

/-- A table: values by key. -/
abbrev Table := List (Text × Value)

/-- A dotted key. -/
abbrev Key := List Text

namespace Table

/-- The value at a key. -/
def get? (t : Table) (key : Text) : Option Value := (t.find? fun e => e.1 == key).map Prod.snd

/-- Sets the value at a key, in the key's place if it has one. -/
def set (key : Text) (value : Value) : Table → Table
  | [] => [(key, value)]
  | e :: rest => if e.1 = key then (key, value) :: rest else e :: set key value rest

/-- Changes the table that a dotted key leads to, and makes the tables on the way that are
missing.  Where `intoArrays` is set the way goes through the last item of an array of tables.
There is no result when the way leads through another value, or `change` gives none. -/
def update (intoArrays : Bool) (change : Table → Option Table) : Key → Table → Option Table
  | [], t => change t
  | k :: path, t =>
    match get? t k with
    | none => (update intoArrays change path []).map fun inner => set k (.table inner) t
    | some (.table inner) =>
      (update intoArrays change path inner).map fun inner => set k (.table inner) t
    | some (.array items) =>
      match intoArrays, items.getLast? with
      | true, some (.table inner) =>
        (update intoArrays change path inner).map fun inner =>
          set k (.array (items.dropLast ++ [.table inner])) t
      | _, _ => none
    | some _ => none

/-- Adds an entry with a new key. -/
def insertNew (key : Text) (value : Value) (t : Table) : Option Table :=
  if (get? t key).isSome then none else some (t ++ [(key, value)])

/-- Adds an empty table to the array of tables at a key. -/
def appendTable (key : Text) (t : Table) : Option Table :=
  match get? t key with
  | none => some (t ++ [(key, .array [.table []])])
  | some (.array items) => some (set key (.array (items ++ [.table []])) t)
  | some _ => none

end Table

end InlineMarkup.Toml
