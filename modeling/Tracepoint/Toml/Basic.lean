/-!
# TOML values

A TOML document is a table. Tables remember how they came about, because that decides what
may still be added to them: a table of a header may not be opened a second time, a table
that a longer header implied may be opened once, a table made by dotted keys grows by
dotted keys only, and an inline table is closed.
-/

namespace Tracepoint

/-- How a table came about. -/
inductive Toml.Origin where
  | header
  | implied
  | dotted
  | inlined
  deriving DecidableEq, Repr

/-- A TOML value. The values of numbers with a point and of dates are not kept. -/
inductive Toml where
  | string (s : String)
  | integer (i : Int)
  | float
  | boolean (b : Bool)
  | date
  | array (items : List Toml)
  | table (origin : Toml.Origin) (entries : List (String × Toml))
  /-- The tables that double brackets made under one name. -/
  | tables (items : List (List (String × Toml)))
  deriving Repr

namespace Toml

/-- The entries of a table. -/
abbrev Entries := List (String × Toml)

namespace Entries

/-- The entries with one replaced or added. -/
def set (name : String) (v : Toml) : Entries → Entries
  | [] => [(name, v)]
  | e :: rest => if e.1 = name then (name, v) :: rest else e :: set name v rest

/-- Changes the table that a path leads to. A path by dotted keys makes and enters only
tables of its own kind; the last of several tables under one name stands for them. -/
def update? (dotted : Bool) (change : Origin → Entries → Option (Origin × Entries))
    (origin : Origin) (entries : Entries) : List String → Option (Origin × Entries)
  | [] => change origin entries
  | name :: path => do
    match entries.lookup name with
    | none =>
      let (o, es) ← update? dotted change (if dotted then .dotted else .implied) [] path
      return (origin, entries.set name (.table o es))
    | some (.table o es) =>
      if o = .inlined ∨ (dotted ∧ o = .header) then none
      let (o, es) ← update? dotted change o es path
      return (origin, entries.set name (.table o es))
    | some (.tables ts) =>
      let (_, es) ← update? dotted change .header (ts.getLast?.getD []) path
      return (origin, entries.set name (.tables (ts.dropLast ++ [es])))
    | some _ => none

/-- Adds a value under a dotted key. -/
def assign? (path : List String) (name : String) (v : Toml) (entries : Entries) :
    Option Entries :=
  let put (origin : Origin) (es : Entries) : Option (Origin × Entries) :=
    if (!path.isEmpty ∧ origin ≠ .dotted) ∨ (es.lookup name).isSome then none
    else some (origin, es ++ [(name, v)])
  (update? true put .header entries path).map Prod.snd

/-- Opens the table of a header. -/
def openTable? (path : List String) (name : String) (entries : Entries) : Option Entries :=
  let put (origin : Origin) (es : Entries) : Option (Origin × Entries) :=
    match es.lookup name with
    | none => some (origin, es ++ [(name, .table .header [])])
    | some (.table .implied inner) => some (origin, es.set name (.table .header inner))
    | some _ => none
  (update? false put .header entries path).map Prod.snd

/-- Opens one more table of a header in double brackets. -/
def openItem? (path : List String) (name : String) (entries : Entries) : Option Entries :=
  let put (origin : Origin) (es : Entries) : Option (Origin × Entries) :=
    match es.lookup name with
    | none => some (origin, es ++ [(name, .tables [[]])])
    | some (.tables ts) => some (origin, es.set name (.tables (ts ++ [[]])))
    | some _ => none
  (update? false put .header entries path).map Prod.snd

/-- Adds a value under a dotted key to the table that a header opened last. -/
def assignUnder? (header path : List String) (name : String) (v : Toml) (entries : Entries) :
    Option Entries :=
  let put (origin : Origin) (es : Entries) : Option (Origin × Entries) :=
    (assign? path name v es).map fun es => (origin, es)
  (update? false put .header entries header).map Prod.snd

end Entries

end Toml

end Tracepoint
