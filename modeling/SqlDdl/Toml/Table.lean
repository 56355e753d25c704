/-!
# TOML tables

The values of a TOML document, and the rules by which headers and dotted keys build
its tables. A key is given a value once. A table is opened by at most one header,
and not after a dotted key has put a value into it; one that a header or braces
have opened is not extended by dotted keys. Numbers are kept with what they come to,
which may be nothing: a document may hold such a number where nobody asks for it.
-/

namespace SqlDdl.Toml

/-- What brought a table into being. -/
inductive Opening where
  /-- Braces around its members, which are all it has. -/
  | inline
  /-- A header of its own. -/
  | header
  /-- The header of a table below it. -/
  | implied
  /-- A dotted key, be it that it made the table or put a value into it. -/
  | dotted
  deriving DecidableEq, Inhabited

/-- A value of a document. Floats and dates are told from other values and not read. -/
inductive Value where
  | string (value : String)
  /-- A whole number, if its digits write one of at most 128 bits. -/
  | integer (value : Option Int)
  /-- A float, and whether it has a finite representation or is meant to be infinite. -/
  | float (representable : Bool)
  | boolean (value : Bool)
  | datetime
  | array (items : List Value)
  | table (opening : Opening) (members : List (String × Value))
  /-- An array of tables, the last one first. -/
  | tables (rows : List (List (String × Value)))
  deriving Inhabited

/-- The members of a table in the order in which they came. -/
abbrev Members : Type := List (String × Value)

mutual

/-- Whether every number in a value comes to something. -/
def Value.evaluates : Value → Bool
  | .integer value => value.isSome
  | .float representable => representable
  | .array items => itemsEvaluate items
  | .table _ members => membersEvaluate members
  | .tables rows => rowsEvaluate rows
  | _ => true

/-- Whether every number in the items of an array comes to something. -/
def itemsEvaluate : List Value → Bool
  | [] => true
  | item :: items => item.evaluates && itemsEvaluate items

/-- Whether every number in the members of a table comes to something. -/
def membersEvaluate : List (String × Value) → Bool
  | [] => true
  | (_, value) :: members => value.evaluates && membersEvaluate members

/-- Whether every number in an array of tables comes to something. -/
def rowsEvaluate : List (List (String × Value)) → Bool
  | [] => true
  | row :: rows => membersEvaluate row && rowsEvaluate rows

end

/-- The members with the value of one key made anew from its old value, if it had one. -/
def alter (key : String) (renew : Option Value → Option Value) : Members → Option Members
  | [] => (renew none).map fun value => [(key, value)]
  | (name, value) :: members =>
    if name = key then (renew (some value)).map fun value => (name, value) :: members
    else (alter key renew members).map ((name, value) :: ·)

/-- The members with a value at the end of a dotted key. The table that gets the value is
closed to headers from then on; those on the way to it stay as they are. -/
def insertPair (value : Value) : List String → Members → Option Members
  | [], _ => none
  | [key], members =>
    alter key (fun
      | none => some value
      | some _ => none) members
  | key :: next :: keys, members =>
    alter key (fun
      | none => (insertPair value (next :: keys) []).map (.table .dotted ·)
      | some (.table .dotted inner) =>
        (insertPair value (next :: keys) inner).map (.table .dotted ·)
      | some (.table .implied inner) =>
        (insertPair value (next :: keys) inner).map
          (.table (if keys.isEmpty then .dotted else .implied) ·)
      | some (.tables (row :: rows)) =>
        if keys.isEmpty then none
        else (insertPair value (next :: keys) row).map fun row => .tables (row :: rows)
      | some _ => none) members

/-- The members with what stands below a path made anew. Tables that are missing on the way
are implied; of an array of tables the last one is meant. -/
def descend (change : Members → Option Members) : List String → Members → Option Members
  | [], members => change members
  | key :: keys, members =>
    alter key (fun
      | none => (descend change keys []).map (.table .implied ·)
      | some (.table .inline _) => none
      | some (.table opening inner) => (descend change keys inner).map (.table opening ·)
      | some (.tables (row :: rows)) =>
        (descend change keys row).map fun row => .tables (row :: rows)
      | some _ => none) members

/-- The members with a table opened by a header. -/
def openTable (keys : List String) (members : Members) : Option Members :=
  match keys.reverse with
  | [] => none
  | key :: above =>
    descend (alter key fun
      | none => some (.table .header [])
      | some (.table .implied inner) => some (.table .header inner)
      | some _ => none) above.reverse members

/-- The members with a further table in an array of tables. -/
def openRow (keys : List String) (members : Members) : Option Members :=
  match keys.reverse with
  | [] => none
  | key :: above =>
    descend (alter key fun
      | none => some (.tables [[]])
      | some (.tables rows) => some (.tables ([] :: rows))
      | some _ => none) above.reverse members

end SqlDdl.Toml
