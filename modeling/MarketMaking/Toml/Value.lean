import MarketMaking.Toml.Datetime

/-!
# TOML values

The values of a TOML document, with where each table came from: that decides what may still be
added to it. A table is defined once; only tables that were merely passed through on the way to
another one may be opened or extended later.
-/

namespace MarketMaking.Toml

/-- How a table came to be. -/
inductive Origin where
  /-- A table header, or the start of the document. -/
  | header
  /-- The way to another table header. -/
  | path
  /-- The way to a value under a dotted key. -/
  | dotted
  /-- Braces; such a table is complete. -/
  | inline
  deriving DecidableEq, Repr

/-- A value. -/
inductive Value where
  | string (text : String)
  | integer (n : Int)
  | float (x : Float)
  | boolean (b : Bool)
  | datetime (d : Datetime)
  /-- Brackets; such an array is complete. -/
  | array (items : List Value)
  /-- Tables under repeated headers in double brackets. -/
  | tables (items : List Value)
  | table (origin : Origin) (entries : List (String × Value))

/-- A table that is being written. -/
structure Table where
  origin : Origin
  entries : List (String × Value)

namespace Table

/-- A table without entries. -/
def empty (origin : Origin) : Table := ⟨origin, []⟩

/-- The table as a value. -/
def toValue (t : Table) : Value := .table t.origin t.entries

/-- The value of a key. -/
def get? (t : Table) (key : String) : Option Value := t.entries.lookup key

/-- Give a key a value, in place of the one it had. -/
def set (t : Table) (key : String) (value : Value) : Table :=
  if (t.get? key).isSome then
    { t with entries := t.entries.map fun e => if e.1 = key then (key, value) else e }
  else { t with entries := t.entries ++ [(key, value)] }

/-- Take a key and its value out. -/
def erase (t : Table) (key : String) : Table :=
  { t with entries := t.entries.filter fun e => e.1 ≠ key }

/-- A change of the value of a key shows under that key only. -/
theorem lookup_replace {α β : Type} [BEq α] [LawfulBEq α] [DecidableEq α]
    (entries : List (α × β)) (key other : α) (value : β) :
    (entries.map fun e => if e.1 = key then (key, value) else e).lookup other =
      if other = key then (entries.lookup key).map fun _ => value else entries.lookup other := by
  induction entries with
  | nil => simp
  | cons e entries ih =>
    obtain ⟨name, old⟩ := e
    by_cases same : other = key
    · by_cases h : name = key
      · simp_all
      · simp_all [List.lookup_cons, beq_eq_false_iff_ne.2 (Ne.symm h)]
    · by_cases h : name = key
      · simp_all [List.lookup_cons, beq_eq_false_iff_ne.2 same]
      · simp_all [List.lookup_cons]

/-- A value that is set is found under its key, and all else is as before. -/
theorem get?_set (t : Table) (key other : String) (value : Value) :
    (t.set key value).get? other = if other = key then some value else t.get? other := by
  unfold set
  cases h : t.get? key with
  | some old =>
    simp only [get?] at h
    simp [get?, lookup_replace, h]
  | none =>
    simp only [get?] at h
    by_cases e : other = key
    · simp [get?, List.lookup_append, e, h]
    · simp [get?, List.lookup_append, List.lookup_cons, e, beq_eq_false_iff_ne.2 e]

/-- A key that is taken out is free, and all else is as before. -/
theorem get?_erase (t : Table) (key other : String) :
    (t.erase key).get? other = if other = key then none else t.get? other := by
  obtain ⟨origin, entries⟩ := t
  simp only [erase, get?]
  induction entries with
  | nil => simp
  | cons e entries ih =>
    obtain ⟨name, value⟩ := e
    by_cases h : name = key
    · subst h
      rw [List.filter_cons_of_neg (by simp), ih]
      by_cases same : other = name
      · simp [same]
      · simp [same, List.lookup_cons, beq_eq_false_iff_ne.2 same]
    · rw [List.filter_cons_of_pos (by simpa using h), List.lookup_cons, List.lookup_cons, ih]
      by_cases same : other = name
      · simp [same, h]
      · simp [beq_eq_false_iff_ne.2 same]

/-- Change the table at the end of a path. Missing tables on the way are made with origin `made`.
The way goes through the last of repeated tables. It may not go through any other value, nor
through a complete table, nor, for a dotted key, through a table with a header of its own. -/
def edit (made : Origin) (f : Table → Option Table) : List String → Table → Option Table
  | [], t => f t
  | key :: path, t =>
      match t.get? key with
      | none => (edit made f path (empty made)).map fun child => t.set key child.toValue
      | some (.table origin entries) =>
          if origin = .inline ∨ (made = .dotted ∧ origin = .header) then none
          else (edit made f path ⟨origin, entries⟩).map fun child => t.set key child.toValue
      | some (.tables items) =>
          match items.getLast? with
          | some (.table origin entries) =>
              (edit made f path ⟨origin, entries⟩).map fun child =>
                t.set key (.tables (items.dropLast ++ [child.toValue]))
          | _ => none
      | some _ => none

/-- Give a key that is still free a value. -/
def add (key : String) (value : Value) (t : Table) : Option Table :=
  if (t.get? key).isSome then none else some (t.set key value)

/-- Write a key with its value. The parts of the key before the last one name tables that only
dotted keys have made. -/
def write (path : List String) (key : String) (value : Value) (t : Table) : Option Table :=
  t.edit .dotted (fun last =>
    if decide (last.origin = .dotted) = path.isEmpty then none else last.add key value) path

/-- Open a table under a header. It must be new, or have been passed through by headers only; then
it moves behind all others, with what it holds. -/
def openTable (path : List String) (key : String) (t : Table) : Option Table :=
  t.edit .path (fun parent =>
    match parent.get? key with
    | none => some (parent.set key (empty .header).toValue)
    | some (.table .path entries) => some ((parent.erase key).set key (.table .header entries))
    | some _ => none) path

/-- Open one more table under a repeated header. -/
def openElement (path : List String) (key : String) (t : Table) : Option Table :=
  t.edit .path (fun parent =>
    match parent.get? key with
    | none => some (parent.set key (.tables [(empty .header).toValue]))
    | some (.tables items) => some (parent.set key (.tables (items ++ [(empty .header).toValue])))
    | some _ => none) path

/-- Write a key with its value into the table of the current header. -/
def writeUnder (heading : List String) (path : List String) (key : String) (value : Value)
    (t : Table) : Option Table :=
  t.edit .path (write path key value) heading

end Table

end MarketMaking.Toml
