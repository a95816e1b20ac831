import InvoiceOps.Values
import Mathlib.Data.List.Sort
import Mathlib.Data.String.Basic

/-!
# JSON codecs

A `Codec` is how a type is written as JSON and read back. What is read back need not be the value
that was written : it is its canonical form, which is written the same way
(`Codec.parse_dump`, `Codec.dump_canon`), and no reader depends on the order of an object's keys
(`Codec.parse_sorted`). The codec of a record is put together from its fields (`Fields`).

Hence a value that is written, stored by anything that keeps JSON up to the order of keys, and read
back any number of times is always read as its canonical form (`Codec.Persisted.parse_eq`).
-/

namespace InvoiceOps

/-! ## The order of keys -/

namespace Json

mutual

/-- The value with the keys of every object in order. -/
def sorted : Json → Json
  | arr items => arr (sortedItems items)
  | obj fields => obj ((sortedFields fields).insertionSort fun f g => f.1 ≤ g.1)
  | j => j

/-- The items of a list, each with its fields in order. -/
def sortedItems : List Json → List Json
  | [] => []
  | j :: js => j.sorted :: sortedItems js

/-- The fields of an object, each with its own fields in order. -/
def sortedFields : List (String × Json) → List (String × Json)
  | [] => []
  | (k, j) :: fs => (k, j.sorted) :: sortedFields fs

end

/-- The items of a list are sorted one by one. -/
theorem sortedItems_eq (items : List Json) : sortedItems items = items.map sorted := by
  induction items with
  | nil => rfl
  | cons j js ih => rw [sortedItems, ih, List.map_cons]

/-- The values of an object are sorted one by one. -/
theorem sortedFields_eq (fields : List (String × Json)) :
    sortedFields fields = fields.map fun f => (f.1, f.2.sorted) := by
  induction fields with
  | nil => rfl
  | cons f fs ih => rw [sortedFields, ih, List.map_cons]

/-- What an object has under a key. -/
def field? (fields : List (String × Json)) (name : String) : Option Json :=
  (fields.find? fun f => f.1 = name).map Prod.snd

/-- A field is looked up from the front. -/
theorem field?_cons (f : String × Json) (fields : List (String × Json)) (name : String) :
    field? (f :: fields) name = if f.1 = name then some f.2 else field? fields name := by
  unfold field?
  rw [List.find?_cons]
  by_cases h : f.1 = name
  · simp [h]
  · simp [h]

/-- Sorting the values keeps where a field is. -/
theorem field?_map (fields : List (String × Json)) (name : String) :
    field? (fields.map fun f => (f.1, f.2.sorted)) name = (field? fields name).map sorted := by
  induction fields with
  | nil => rfl
  | cons f fs ih =>
    rw [List.map_cons, field?_cons, field?_cons, ih]
    split_ifs <;> rfl

/-- Where a field is inserted, its value is found. -/
theorem field?_orderedInsert (f : String × Json) (fields : List (String × Json)) (name : String) :
    field? (fields.orderedInsert (fun f g => f.1 ≤ g.1) f) name = field? (f :: fields) name := by
  induction fields with
  | nil => rfl
  | cons g gs ih =>
    rw [List.orderedInsert_cons]
    split_ifs with hle
    · rfl
    · have hne : f.1 ≠ g.1 := fun h => hle (le_of_eq h)
      rw [field?_cons, ih, field?_cons, field?_cons, field?_cons]
      split_ifs with hg hf
      · exact absurd (hf.trans hg.symm) hne
      · rfl
      · rfl
      · rfl

/-- Sorting the fields changes no value. -/
theorem field?_insertionSort (fields : List (String × Json)) (name : String) :
    field? (fields.insertionSort fun f g => f.1 ≤ g.1) name = field? fields name := by
  induction fields with
  | nil => rfl
  | cons f fs ih =>
    rw [List.insertionSort_cons, field?_orderedInsert, field?_cons, field?_cons, ih]

/-- The fields of an object are read by name, if no name is there twice. -/
theorem field?_of_mem {fields : List (String × Json)} (hd : (fields.map Prod.fst).Nodup)
    {f : String × Json} (hf : f ∈ fields) : field? fields f.1 = some f.2 := by
  induction fields with
  | nil => exact absurd hf List.not_mem_nil
  | cons g gs ih =>
    rw [List.map_cons, List.nodup_cons] at hd
    rw [field?_cons]
    rcases List.mem_cons.mp hf with rfl | hf
    · rw [if_pos rfl]
    · have hne : g.1 ≠ f.1 := fun h => hd.1 (h ▸ List.mem_map_of_mem hf)
      rw [if_neg hne, ih hd.2 hf]

end Json

/-! ## Codecs -/

/-- How values are written as JSON and read back ; `canon` is what is read of a value that was
written. -/
structure Codec (α : Type) where
  dump : α → Json
  parse : Json → Option α
  canon : α → α
  parse_dump : ∀ x, parse (dump x) = some (canon x)
  dump_canon : ∀ x, dump (canon x) = dump x
  parse_sorted : ∀ j, parse j.sorted = parse j

namespace Codec

variable {α β : Type}

/-- What `stored` was written as, with the keys in any order, is read as the canonical form. -/
theorem parse_stored (c : Codec α) {x : α} {stored : Json}
    (h : stored.sorted = (c.dump x).sorted) : c.parse stored = some (c.canon x) := by
  rw [← c.parse_sorted, h, c.parse_sorted, c.parse_dump]

/-- Read through another type. -/
def map (c : Codec α) (wrap : α → β) (unwrap : β → α) (unwrap_wrap : ∀ a, unwrap (wrap a) = a) :
    Codec β where
  dump b := c.dump (unwrap b)
  parse j := (c.parse j).map wrap
  canon b := wrap (c.canon (unwrap b))
  parse_dump b := by rw [c.parse_dump, Option.map_some]
  dump_canon b := by rw [unwrap_wrap, c.dump_canon]
  parse_sorted j := by rw [c.parse_sorted]

/-- Read with a check that canonical forms keep. -/
def check (c : Codec α) (p : α → Prop) [DecidablePred p] (h : ∀ x, p x → p (c.canon x)) :
    Codec { x // p x } where
  dump x := c.dump x.val
  parse j := (c.parse j).bind fun x => if hx : p x then some ⟨x, hx⟩ else none
  canon x := ⟨c.canon x.val, h x.val x.property⟩
  parse_dump x := by rw [c.parse_dump, Option.bind_some, dif_pos (h x.val x.property)]
  dump_canon x := c.dump_canon x.val
  parse_sorted j := by rw [c.parse_sorted]

/-! ### Scalars -/

/-- A value that is written as a text, and read back in canonical form. -/
def text (print : α → String) (read : String → Option α) (canon : α → α)
    (read_print : ∀ x, read (print x) = some (canon x))
    (print_canon : ∀ x, print (canon x) = print x) : Codec α where
  dump x := .str (print x)
  parse
    | .str s => read s
    | _ => none
  canon := canon
  parse_dump := read_print
  dump_canon x := congrArg Json.str (print_canon x)
  parse_sorted j := by cases j <;> rfl

/-- A text is itself. -/
def string : Codec String :=
  text id some id (fun _ => rfl) fun _ => rfl

/-- A text is not `null`. -/
theorem string_ne_null (s : String) : string.dump s ≠ .null :=
  nofun

/-- One of a few names. -/
def literal (name : α → String) (all : List α)
    (h : ∀ x, (all.find? fun y => name y = name x) = some x) : Codec α :=
  text name (fun s => all.find? fun y => name y = s) id h fun _ => rfl

/-- A flag is itself. -/
def bool : Codec Bool where
  dump := .bool
  parse
    | .bool b => some b
    | _ => none
  canon := id
  parse_dump _ := rfl
  dump_canon _ := rfl
  parse_sorted j := by cases j <;> rfl

/-- A natural number, as an integer that is not negative. -/
def nat : Codec ℕ where
  dump n := .num n
  parse
    | .num n => if 0 ≤ n then some n.toNat else none
    | _ => none
  canon := id
  parse_dump n := by simp
  dump_canon _ := rfl
  parse_sorted j := by cases j <;> rfl

/-- Nor is a number. -/
theorem nat_ne_null (n : ℕ) : nat.dump n ≠ .null :=
  nofun

/-! ### Containers -/

/-- Only null is sorted into null. -/
theorem sorted_eq_null {j : Json} : j.sorted = .null ↔ j = .null := by
  cases j <;> simp [Json.sorted]

/-- A value or `null`. -/
def nullable (c : Codec α) (h : ∀ x, c.dump x ≠ .null) : Codec (Option α) where
  dump x := x.elim .null c.dump
  parse j := if j = .null then some none else (c.parse j).map some
  canon := Option.map c.canon
  parse_dump x := by
    cases x with
    | none => rfl
    | some x =>
      rw [Option.elim_some, if_neg (h x), c.parse_dump]
      rfl
  dump_canon x := by
    cases x with
    | none => rfl
    | some x => exact c.dump_canon x
  parse_sorted j := by
    rw [c.parse_sorted]
    simp only [sorted_eq_null]

/-- A list, item by item. -/
def list (c : Codec α) : Codec (List α) where
  dump xs := .arr (xs.map c.dump)
  parse
    | .arr items => items.mapM c.parse
    | _ => none
  canon := List.map c.canon
  parse_dump xs := by
    induction xs with
    | nil => rfl
    | cons x xs ih =>
      dsimp only at ih ⊢
      rw [List.map_cons, List.mapM_cons, c.parse_dump, ih]
      rfl
  dump_canon xs := by
    rw [List.map_map]
    exact congrArg Json.arr (List.map_congr_left fun x _ => c.dump_canon x)
  parse_sorted j := by
    cases j with
    | arr items =>
      simp only [Json.sorted, Json.sortedItems_eq]
      induction items with
      | nil => rfl
      | cons j js ih => rw [List.map_cons, List.mapM_cons, List.mapM_cons, c.parse_sorted, ih]
    | _ => rfl

/-! Containers keep what their items keep. -/

/-- A value that may be missing is read back as it is, if the value is. -/
theorem canon_nullable {c : Codec α} {h : ∀ x, c.dump x ≠ .null} (hc : ∀ x, c.canon x = x)
    (x : Option α) : (c.nullable h).canon x = x := by
  cases x with
  | none => rfl
  | some x => exact congrArg some (hc x)

/-- So is a list, if its items are. -/
theorem canon_list (c : Codec α) (hc : ∀ x, c.canon x = x) (xs : List α) : c.list.canon xs = xs :=
  (List.map_congr_left fun x _ => hc x).trans (List.map_id xs)

end Codec

/-! ## Records -/

/-- The fields of a record : what they are called, how they are written in order, and how they are
read from whatever is under each name. -/
structure Fields (α : Type) where
  names : List String
  dump : α → List (String × Json)
  read : (String → Option Json) → Option α
  canon : α → α
  names_dump : ∀ x, (dump x).map Prod.fst = names
  read_dump : ∀ x get, (∀ f ∈ dump x, get f.1 = some f.2) → read get = some (canon x)
  dump_canon : ∀ x, dump (canon x) = dump x
  read_sorted : ∀ get get', (∀ n ∈ names, get' n = (get n).map Json.sorted) →
    read get' = read get

namespace Fields

variable {α β : Type}

/-- A field that has to be there. -/
def required (name : String) (c : Codec α) : Fields α where
  names := [name]
  dump x := [(name, c.dump x)]
  read get := (get name).bind c.parse
  canon := c.canon
  names_dump _ := rfl
  read_dump x get h := by
    rw [h (name, c.dump x) List.mem_cons_self, Option.bind_some, c.parse_dump]
  dump_canon x := by rw [c.dump_canon]
  read_sorted get get' h := by
    rw [h name List.mem_cons_self]
    cases get name with
    | none => rfl
    | some j => exact c.parse_sorted j

/-- A field with a default. -/
def default (name : String) (c : Codec α) (value : α) : Fields α where
  names := [name]
  dump x := [(name, c.dump x)]
  read get := (get name).elim (some value) c.parse
  canon := c.canon
  names_dump _ := rfl
  read_dump x get h := by
    rw [h (name, c.dump x) List.mem_cons_self, Option.elim_some, c.parse_dump]
  dump_canon x := by rw [c.dump_canon]
  read_sorted get get' h := by
    rw [h name List.mem_cons_self]
    cases get name with
    | none => rfl
    | some j => exact c.parse_sorted j

@[simp] theorem names_required (name : String) (c : Codec α) : (required name c).names = [name] :=
  rfl

@[simp] theorem names_default (name : String) (c : Codec α) (value : α) :
    (default name c value).names = [name] :=
  rfl

/-- One more field, before the others. -/
def and (a : Fields α) (b : Fields β) : Fields (α × β) where
  names := a.names ++ b.names
  dump x := a.dump x.1 ++ b.dump x.2
  read get := (a.read get).bind fun x => (b.read get).map fun y => (x, y)
  canon x := (a.canon x.1, b.canon x.2)
  names_dump x := by rw [List.map_append, a.names_dump, b.names_dump]
  read_dump x get h := by
    rw [a.read_dump x.1 get fun f hf => h f (List.mem_append_left _ hf),
      b.read_dump x.2 get fun f hf => h f (List.mem_append_right _ hf)]
    rfl
  dump_canon x := by rw [a.dump_canon, b.dump_canon]
  read_sorted get get' h := by
    rw [a.read_sorted get get' fun n hn => h n (List.mem_append_left _ hn),
      b.read_sorted get get' fun n hn => h n (List.mem_append_right _ hn)]

@[simp] theorem names_and (a : Fields α) (b : Fields β) : (a.and b).names = a.names ++ b.names :=
  rfl

end Fields

namespace Codec

variable {α : Type}

/-- An object of exactly these fields. -/
def record (f : Fields α) (hd : f.names.Nodup) : Codec α where
  dump x := .obj (f.dump x)
  parse
    | .obj fields =>
      if fields.all fun g => g.1 ∈ f.names then f.read (Json.field? fields) else none
    | _ => none
  canon := f.canon
  parse_dump x := by
    have hnames : ((f.dump x).map Prod.fst).Nodup := by rwa [f.names_dump]
    have hall : ((f.dump x).all fun g => g.1 ∈ f.names) = true := by
      rw [List.all_eq_true]
      intro g hg
      rw [← f.names_dump x]
      exact decide_eq_true (List.mem_map_of_mem hg)
    dsimp only
    rw [if_pos hall]
    exact f.read_dump x _ fun g hg => Json.field?_of_mem hnames hg
  dump_canon x := by rw [f.dump_canon]
  parse_sorted j := by
    cases j with
    | obj fields =>
      have hget : ∀ n ∈ f.names,
          Json.field? ((Json.sortedFields fields).insertionSort fun f g => f.1 ≤ g.1) n =
            (Json.field? fields n).map Json.sorted := by
        intro n _
        rw [Json.field?_insertionSort, Json.sortedFields_eq, Json.field?_map]
      have hperm := List.perm_insertionSort (fun f g : String × Json => f.1 ≤ g.1)
        (Json.sortedFields fields)
      have hall : (((Json.sortedFields fields).insertionSort fun f g => f.1 ≤ g.1).all
          fun g => g.1 ∈ f.names) = fields.all fun g => g.1 ∈ f.names := by
        rw [hperm.all_eq, Json.sortedFields_eq, List.all_map]
        rfl
      simp only [Json.sorted, hall]
      rw [f.read_sorted _ _ hget]
    | _ => rfl

end Codec

/-! ## Stored values -/

namespace Codec

variable {α : Type} (c : Codec α)

/-- What may be kept of a value : it was written, stored, and read and written again. -/
inductive Persisted (x : α) : Json → Prop
  | written : Persisted x (c.dump x)
  | stored {j j' : Json} : Persisted x j → j'.sorted = j.sorted → Persisted x j'
  | rewritten {j : Json} {y : α} : Persisted x j → c.parse j = some y → Persisted x (c.dump y)

/-- What may be kept where there is a value. -/
def PersistedIn : Option α → Option Json → Prop
  | some x, some j => c.Persisted x j
  | none, none => True
  | _, _ => False

variable {c}

/-- A stored value has the fields of its dump, in some order. -/
theorem Persisted.sorted_eq {x : α} {j : Json} (h : c.Persisted x j) :
    j.sorted = (c.dump x).sorted := by
  induction h with
  | written => rfl
  | stored _ hsorted ih => exact hsorted.trans ih
  | rewritten _ hparse ih =>
    obtain rfl : c.canon x = _ := Option.some.inj ((c.parse_stored ih).symm.trans hparse)
    rw [c.dump_canon]

/-- It is read back as the canonical form of the value. -/
theorem Persisted.parse_eq {x : α} {j : Json} (h : c.Persisted x j) :
    c.parse j = some (c.canon x) :=
  c.parse_stored h.sorted_eq

end Codec

end InvoiceOps
