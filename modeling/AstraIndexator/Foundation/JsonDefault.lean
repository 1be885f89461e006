import AstraIndexator.Foundation.Json
import AstraIndexator.Foundation.Traverse

/-!
# Values with foreign leaves

An encoder of JSON may be given a value of any type.  It knows the shapes of JSON and
hands every other leaf to a function that turns it into JSON or refuses it.
-/

/-- The shapes of JSON, over leaves of which some have the foreign type `α`. -/
inductive PyValue (α : Type)
  | null
  | bool (b : Bool)
  | int (n : Int)
  | float (repr : String)
  | str (s : String)
  | list (items : List (PyValue α))
  | dict (fields : List (String × PyValue α))
  | other (a : α)

namespace PyValue

open Transaction

variable {α ε : Type}

/-- A text, or nothing. -/
def ofOption : Option String → PyValue α
  | none => .null
  | some s => .str s

mutual
/-- The value in JSON, with `default` for the foreign leaves. -/
def toJson (default : α → Except ε Json) : PyValue α → Except ε Json
  | .null => .ok .null
  | .bool b => .ok (.bool b)
  | .int n => .ok (.int n)
  | .float repr => .ok (.float repr)
  | .str s => .ok (.str s)
  | .list items => do return .arr (← toJsonItems default items)
  | .dict fields => do return .obj (← toJsonFields default fields)
  | .other a => default a

def toJsonItems (default : α → Except ε Json) : List (PyValue α) → Except ε (List Json)
  | [] => .ok []
  | v :: rest => do return (← toJson default v) :: (← toJsonItems default rest)

def toJsonFields (default : α → Except ε Json) :
    List (String × PyValue α) → Except ε (List (String × Json))
  | [] => .ok []
  | (k, v) :: rest => do return (k, ← toJson default v) :: (← toJsonFields default rest)
end

mutual
/-- The value in JSON, with `g` in the place of the foreign leaves. -/
def json (g : α → Json) : PyValue α → Json
  | .null => .null
  | .bool b => .bool b
  | .int n => .int n
  | .float repr => .float repr
  | .str s => .str s
  | .list items => .arr (jsonItems g items)
  | .dict fields => .obj (jsonFields g fields)
  | .other a => g a

def jsonItems (g : α → Json) : List (PyValue α) → List Json
  | [] => []
  | v :: rest => json g v :: jsonItems g rest

def jsonFields (g : α → Json) : List (String × PyValue α) → List (String × Json)
  | [] => []
  | (k, v) :: rest => (k, json g v) :: jsonFields g rest
end

mutual
/-- The foreign leaves. -/
def others : PyValue α → List α
  | .list items => othersItems items
  | .dict fields => othersFields fields
  | .other a => [a]
  | _ => []

def othersItems : List (PyValue α) → List α
  | [] => []
  | v :: rest => others v ++ othersItems rest

def othersFields : List (String × PyValue α) → List α
  | [] => []
  | (_, v) :: rest => others v ++ othersFields rest
end

@[simp] theorem jsonItems_eq (g : α → Json) (items : List (PyValue α)) :
    jsonItems g items = items.map (json g) := by
  induction items with
  | nil => rfl
  | cons v rest ih => rw [jsonItems, ih, List.map_cons]

@[simp] theorem jsonFields_eq (g : α → Json) (fields : List (String × PyValue α)) :
    jsonFields g fields = fields.map fun f => (f.1, json g f.2) := by
  induction fields with
  | nil => rfl
  | cons f rest ih => rw [jsonFields, ih, List.map_cons]

@[simp] theorem othersItems_eq (items : List (PyValue α)) :
    othersItems items = items.flatMap others := by
  induction items with
  | nil => rfl
  | cons v rest ih => rw [othersItems, ih, List.flatMap_cons]

@[simp] theorem othersFields_eq (fields : List (String × PyValue α)) :
    othersFields fields = fields.flatMap fun f => others f.2 := by
  induction fields with
  | nil => rfl
  | cons f rest ih => rw [othersFields, ih, List.flatMap_cons]

/-- An induction over a value with one hypothesis for all items and all fields. -/
@[elab_as_elim]
theorem induction {P : PyValue α → Prop} (null : P .null) (bool : ∀ b, P (.bool b))
    (int : ∀ n, P (.int n)) (float : ∀ repr, P (.float repr)) (str : ∀ s, P (.str s))
    (list : ∀ items, (∀ v ∈ items, P v) → P (.list items))
    (dict : ∀ fields : List (String × PyValue α), (∀ f ∈ fields, P f.2) → P (.dict fields))
    (other : ∀ a, P (.other a)) : ∀ v, P v :=
  PyValue.rec (motive_1 := P) (motive_2 := fun items => ∀ v ∈ items, P v)
    (motive_3 := fun fields => ∀ f ∈ fields, P f.2) (motive_4 := fun f => P f.2)
    null bool int float str list dict other
    (fun v hv => by cases hv)
    (fun _ _ hhead htail => List.forall_mem_cons.mpr ⟨hhead, htail⟩)
    (fun v hv => by cases hv)
    (fun _ _ hhead htail => List.forall_mem_cons.mpr ⟨hhead, htail⟩)
    (fun _ _ hvalue => hvalue)

section Encoding

variable {default : α → Except ε Json} {g : α → Json}

theorem toJsonItems_ok {items : List (PyValue α)}
    (h : ∀ v ∈ items, toJson default v = .ok (json g v)) :
    toJsonItems default items = .ok (items.map (json g)) := by
  induction items with
  | nil => rfl
  | cons v rest ih =>
    rw [toJsonItems, h v List.mem_cons_self, except_ok_bind,
      ih fun w hw => h w (List.mem_cons_of_mem _ hw)]
    rfl

theorem toJsonFields_ok {fields : List (String × PyValue α)}
    (h : ∀ f ∈ fields, toJson default f.2 = .ok (json g f.2)) :
    toJsonFields default fields = .ok (fields.map fun f => (f.1, json g f.2)) := by
  induction fields with
  | nil => rfl
  | cons f rest ih =>
    rw [toJsonFields, h f List.mem_cons_self, except_ok_bind,
      ih fun w hw => h w (List.mem_cons_of_mem _ hw)]
    rfl

/-- A value is encoded if all its foreign leaves are. -/
theorem toJson_ok {v : PyValue α} (h : ∀ a ∈ v.others, default a = .ok (g a)) :
    toJson default v = .ok (json g v) := by
  induction v using induction with
  | null => rfl
  | bool b => rfl
  | int n => rfl
  | float repr => rfl
  | str s => rfl
  | other a => exact h a (List.mem_singleton_self a)
  | list items ih =>
    rw [others, othersItems_eq] at h
    have hitems := toJsonItems_ok fun v hv => ih v hv fun a ha =>
      h a (List.mem_flatMap.mpr ⟨v, hv, ha⟩)
    rw [toJson, hitems, json, jsonItems_eq]
    rfl
  | dict fields ih =>
    rw [others, othersFields_eq] at h
    have hfields := toJsonFields_ok fun f hf => ih f hf fun a ha =>
      h a (List.mem_flatMap.mpr ⟨f, hf, ha⟩)
    rw [toJson, hfields, json, jsonFields_eq]
    rfl

theorem mem_of_toJsonItems_ok {items : List (PyValue α)} {js : List Json}
    (h : toJsonItems default items = .ok js) : ∀ v ∈ items, ∃ j, toJson default v = .ok j := by
  induction items generalizing js with
  | nil => exact List.forall_mem_nil _
  | cons v rest ih =>
    rw [toJsonItems] at h
    obtain ⟨j, hj, h⟩ := except_bind_ok.mp h
    obtain ⟨js, hjs, -⟩ := except_bind_ok.mp h
    exact List.forall_mem_cons.mpr ⟨⟨j, hj⟩, ih hjs⟩

theorem mem_of_toJsonFields_ok {fields : List (String × PyValue α)} {js : List (String × Json)}
    (h : toJsonFields default fields = .ok js) :
    ∀ f ∈ fields, ∃ j, toJson default f.2 = .ok j := by
  induction fields generalizing js with
  | nil => exact List.forall_mem_nil _
  | cons f rest ih =>
    rw [toJsonFields] at h
    obtain ⟨j, hj, h⟩ := except_bind_ok.mp h
    obtain ⟨js, hjs, -⟩ := except_bind_ok.mp h
    exact List.forall_mem_cons.mpr ⟨⟨j, hj⟩, ih hjs⟩

/-- A value that is encoded has no leaf that is refused. -/
theorem default_ok_of_toJson {v : PyValue α} {j : Json} (h : toJson default v = .ok j) :
    ∀ a ∈ v.others, ∃ j, default a = .ok j := by
  induction v using induction generalizing j with
  | null => exact List.forall_mem_nil _
  | bool b => exact List.forall_mem_nil _
  | int n => exact List.forall_mem_nil _
  | float repr => exact List.forall_mem_nil _
  | str s => exact List.forall_mem_nil _
  | other a => exact List.forall_mem_singleton.mpr ⟨j, h⟩
  | list items ih =>
    rw [toJson] at h
    obtain ⟨js, hjs, -⟩ := except_bind_ok.mp h
    rw [others, othersItems_eq]
    intro a ha
    obtain ⟨v, hv, ha⟩ := List.mem_flatMap.mp ha
    obtain ⟨j, hj⟩ := mem_of_toJsonItems_ok hjs v hv
    exact ih v hv hj a ha
  | dict fields ih =>
    rw [toJson] at h
    obtain ⟨js, hjs, -⟩ := except_bind_ok.mp h
    rw [others, othersFields_eq]
    intro a ha
    obtain ⟨f, hf, ha⟩ := List.mem_flatMap.mp ha
    obtain ⟨j, hj⟩ := mem_of_toJsonFields_ok hjs f hf
    exact ih f hf hj a ha

/-- An encoder that refuses every foreign leaf encodes the values without one. -/
theorem toJson_ok_iff (hrefuse : ∀ a j, default a ≠ .ok j) {v : PyValue α} {j : Json} :
    toJson default v = .ok j ↔ v.others = [] ∧ j = json (fun _ => .null) v := by
  constructor
  · intro h
    have hnone : v.others = [] := by
      apply List.eq_nil_iff_forall_not_mem.mpr
      intro a ha
      obtain ⟨j, hj⟩ := default_ok_of_toJson h a ha
      exact hrefuse a j hj
    have hjson : toJson default v = .ok (json (fun _ => .null) v) := by
      apply toJson_ok
      rw [hnone]
      exact List.forall_mem_nil _
    exact ⟨hnone, Except.ok.inj (h.symm.trans hjson)⟩
  · rintro ⟨hnone, rfl⟩
    apply toJson_ok
    rw [hnone]
    exact List.forall_mem_nil _

end Encoding

end PyValue
