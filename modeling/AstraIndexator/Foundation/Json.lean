import AstraIndexator.Foundation.Text
import Mathlib.Data.List.Sort

/-!
# Compact JSON texts

`Json.render` is `json.dumps` with sorted keys and compact separators.  The
values of an object are rendered before its fields are sorted, so the recursion
follows the value.
-/

/-- A JSON value.  Objects keep their fields in insertion order.  A float is given by
the text of its `repr`. -/
inductive Json
  | null
  | bool (b : Bool)
  | int (n : Int)
  | float (repr : String)
  | str (s : String)
  | arr (items : List Json)
  | obj (fields : List (String × Json))

namespace Json

open Text

def isNull : Json → Bool
  | .null => true
  | _ => false

def unicodeEscape (n : Nat) : List Char := '\\' :: 'u' :: hexChars 4 n

/-- One character inside a JSON string.  With `ensureAscii` a character outside
ASCII is written as one escape, or as a surrogate pair above the basic plane. -/
def escapeChar (ensureAscii : Bool) (c : Char) : List Char :=
  let n := c.toNat
  if c = '"' then ['\\', '"']
  else if c = '\\' then ['\\', '\\']
  else if n = 8 then ['\\', 'b']
  else if n = 9 then ['\\', 't']
  else if n = 10 then ['\\', 'n']
  else if n = 12 then ['\\', 'f']
  else if n = 13 then ['\\', 'r']
  else if n < 32 then unicodeEscape n
  else if ensureAscii && 128 ≤ n then
    if n < 0x10000 then unicodeEscape n
    else unicodeEscape (0xd800 + (n - 0x10000) / 0x400) ++
      unicodeEscape (0xdc00 + (n - 0x10000) % 0x400)
  else [c]

def quote (ensureAscii : Bool) (s : String) : List Char :=
  '"' :: s.toList.flatMap (escapeChar ensureAscii) ++ ['"']

/-- Insert a field before the first key that is not smaller. -/
def insertField {α : Type} (f : String × α) : List (String × α) → List (String × α)
  | [] => [f]
  | g :: rest =>
    if charsLe f.1.toList g.1.toList then f :: g :: rest else g :: insertField f rest

/-- Fields in the order `sort_keys` gives them. -/
def sortFields {α : Type} (fields : List (String × α)) : List (String × α) :=
  fields.foldr insertField []

def commaSeparated : List (List Char) → List Char
  | [] => []
  | [x] => x
  | x :: y :: rest => x ++ ',' :: commaSeparated (y :: rest)

mutual
/-- `json.dumps(value, ensure_ascii=…, separators=(",", ":"), sort_keys=True)`. -/
def render (ensureAscii : Bool) : Json → List Char
  | .null => "null".toList
  | .bool b => if b then "true".toList else "false".toList
  | .int n => (toString n).toList
  | .float repr => repr.toList
  | .str s => quote ensureAscii s
  | .arr items => '[' :: commaSeparated (renderItems ensureAscii items) ++ [']']
  | .obj fields =>
    '{' :: commaSeparated ((sortFields (renderFields ensureAscii fields)).map
      (fun f => quote ensureAscii f.1 ++ ':' :: f.2)) ++ ['}']

def renderItems (ensureAscii : Bool) : List Json → List (List Char)
  | [] => []
  | v :: rest => render ensureAscii v :: renderItems ensureAscii rest

def renderFields (ensureAscii : Bool) : List (String × Json) → List (String × List Char)
  | [] => []
  | (k, v) :: rest => (k, render ensureAscii v) :: renderFields ensureAscii rest
end

/-- An induction over a value with one hypothesis for all items and all fields. -/
@[elab_as_elim]
theorem induction {P : Json → Prop} (null : P .null) (bool : ∀ b, P (.bool b))
    (int : ∀ n, P (.int n)) (float : ∀ repr, P (.float repr)) (str : ∀ s, P (.str s))
    (arr : ∀ items, (∀ v ∈ items, P v) → P (.arr items))
    (obj : ∀ fields : List (String × Json), (∀ f ∈ fields, P f.2) → P (.obj fields)) : ∀ v, P v :=
  Json.rec (motive_1 := P) (motive_2 := fun items => ∀ v ∈ items, P v)
    (motive_3 := fun fields => ∀ f ∈ fields, P f.2) (motive_4 := fun f => P f.2)
    null bool int float str arr obj
    (fun v hv => by cases hv)
    (fun _ _ hhead htail => List.forall_mem_cons.mpr ⟨hhead, htail⟩)
    (fun v hv => by cases hv)
    (fun _ _ hhead htail => List.forall_mem_cons.mpr ⟨hhead, htail⟩)
    (fun _ _ hvalue => hvalue)

/-! ## Sorted fields -/

/-- Code-point order of two keys. -/
def KeyLe {α : Type} (f g : String × α) : Prop := charsLe f.1.toList g.1.toList = true

instance {α : Type} : DecidableRel (KeyLe (α := α)) := fun f g =>
  inferInstanceAs (Decidable (charsLe f.1.toList g.1.toList = true))

instance {α : Type} : Std.Total (KeyLe (α := α)) := ⟨fun f g => charsLe_total f.1.toList g.1.toList⟩

instance {α : Type} : IsTrans (String × α) KeyLe := ⟨fun _ _ _ => charsLe_trans⟩

theorem insertField_eq {α : Type} (f : String × α) (fields : List (String × α)) :
    insertField f fields = fields.orderedInsert KeyLe f := by
  induction fields with
  | nil => rfl
  | cons g rest ih =>
    rw [insertField, List.orderedInsert_cons, ih]
    rfl

theorem sortFields_eq {α : Type} (fields : List (String × α)) :
    sortFields fields = fields.insertionSort KeyLe := by
  induction fields with
  | nil => rfl
  | cons f rest ih =>
    rw [List.insertionSort_cons, ← ih, ← insertField_eq]
    rfl

theorem sortFields_perm {α : Type} (fields : List (String × α)) :
    (sortFields fields).Perm fields := by
  rw [sortFields_eq]
  exact List.perm_insertionSort _ _

theorem sortFields_sortFields {α : Type} (fields : List (String × α)) :
    sortFields (sortFields fields) = sortFields fields := by
  rw [sortFields_eq, sortFields_eq]
  exact (List.pairwise_insertionSort KeyLe fields).insertionSort_eq

/-- Sorting looks at the keys only. -/
theorem sortFields_map {α β : Type} (f : α → β) (fields : List (String × α)) :
    sortFields (fields.map fun x => (x.1, f x.2)) =
      (sortFields fields).map fun x => (x.1, f x.2) := by
  rw [sortFields_eq, sortFields_eq]
  exact (List.map_insertionSort KeyLe KeyLe (fun x : String × α => (x.1, f x.2)) fields
    fun _ _ _ _ => Iff.rfl).symm

/-- Sorting looks at the keys only, and puts them in code-point order. -/
example : sortFields [("b", ['1']), ("a", ['2'])] = [("a", ['2']), ("b", ['1'])] := by decide

mutual
/-- The same value with the fields of every object in key order.  Python compares
dictionaries without their order, so `v.sorted` equals `v` there. -/
def sorted : Json → Json
  | .arr items => .arr (sortedItems items)
  | .obj fields => .obj (sortFields (sortedFields fields))
  | v => v

def sortedItems : List Json → List Json
  | [] => []
  | v :: rest => sorted v :: sortedItems rest

def sortedFields : List (String × Json) → List (String × Json)
  | [] => []
  | (k, v) :: rest => (k, sorted v) :: sortedFields rest
end

@[simp] theorem renderItems_eq (ensureAscii : Bool) (items : List Json) :
    renderItems ensureAscii items = items.map (render ensureAscii) := by
  induction items with
  | nil => rfl
  | cons v rest ih => rw [renderItems, ih, List.map_cons]

@[simp] theorem renderFields_eq (ensureAscii : Bool) (fields : List (String × Json)) :
    renderFields ensureAscii fields = fields.map fun f => (f.1, render ensureAscii f.2) := by
  induction fields with
  | nil => rfl
  | cons f rest ih => rw [renderFields, ih, List.map_cons]

@[simp] theorem sortedItems_eq (items : List Json) : sortedItems items = items.map sorted := by
  induction items with
  | nil => rfl
  | cons v rest ih => rw [sortedItems, ih, List.map_cons]

@[simp] theorem sortedFields_eq (fields : List (String × Json)) :
    sortedFields fields = fields.map fun f => (f.1, f.2.sorted) := by
  induction fields with
  | nil => rfl
  | cons f rest ih => rw [sortedFields, ih, List.map_cons]

theorem sorted_arr (items : List Json) : (arr items).sorted = .arr (items.map sorted) := by
  rw [sorted, sortedItems_eq]

theorem sorted_obj (fields : List (String × Json)) :
    (obj fields).sorted = .obj ((sortFields fields).map fun f => (f.1, f.2.sorted)) := by
  rw [sorted, sortedFields_eq, sortFields_map]

/-- The text of an object, with its fields sorted before they are rendered. -/
theorem render_obj (ensureAscii : Bool) (fields : List (String × Json)) :
    render ensureAscii (.obj fields) = '{' :: commaSeparated ((sortFields fields).map
      fun f => quote ensureAscii f.1 ++ ':' :: render ensureAscii f.2) ++ ['}'] := by
  rw [render, renderFields_eq, sortFields_map, List.map_map]
  rfl

theorem render_arr (ensureAscii : Bool) (items : List Json) :
    render ensureAscii (.arr items) =
      '[' :: commaSeparated (items.map (render ensureAscii)) ++ [']'] := by
  rw [render, renderItems_eq]

theorem sorted_sorted (v : Json) : v.sorted.sorted = v.sorted := by
  induction v using induction with
  | null => rfl
  | bool b => rfl
  | int n => rfl
  | float repr => rfl
  | str s => rfl
  | arr items ih =>
    rw [sorted_arr, sorted_arr, List.map_map]
    exact congrArg arr (List.map_congr_left ih)
  | obj fields ih =>
    rw [sorted_obj, sorted_obj, sortFields_map, sortFields_sortFields, List.map_map]
    refine congrArg obj (List.map_congr_left fun f hf => ?_)
    exact congrArg (Prod.mk f.1) (ih f ((sortFields_perm fields).mem_iff.mp hf))

/-- The text does not tell the order of the fields. -/
theorem render_sorted (ensureAscii : Bool) (v : Json) :
    render ensureAscii v.sorted = render ensureAscii v := by
  induction v using induction with
  | null => rfl
  | bool b => rfl
  | int n => rfl
  | float repr => rfl
  | str s => rfl
  | arr items ih =>
    rw [sorted_arr, render_arr, render_arr, List.map_map,
      List.map_congr_left (g := render ensureAscii)]
    exact ih
  | obj fields ih =>
    rw [sorted_obj, render_obj, render_obj, sortFields_map, sortFields_sortFields, List.map_map,
      List.map_congr_left]
    intro f hf
    simp only [Function.comp_apply, ih f ((sortFields_perm fields).mem_iff.mp hf)]

end Json
