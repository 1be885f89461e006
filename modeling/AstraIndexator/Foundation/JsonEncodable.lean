import AstraIndexator.Foundation.PythonJson
import AstraIndexator.Foundation.Traverse

/-!
# Values with a canonical text

A value is written exactly when its numbers are finite and short, the keys of every
dictionary can be sorted, it is not nested too deeply, and its texts have no lone surrogate.
-/

namespace PyJson

open Transaction

/-- An induction over a value with one hypothesis for all items and all values of fields. -/
@[elab_as_elim]
theorem induction {P : PyJson → Prop} (null : P .null) (bool : ∀ b, P (.bool b))
    (int : ∀ n, P (.int n)) (float : ∀ repr, P (.float repr)) (str : ∀ s, P (.str s))
    (list : ∀ items, (∀ v ∈ items, P v) → P (.list items))
    (dict : ∀ fields : List (PyJson × PyJson), (∀ f ∈ fields, P f.2) → P (.dict fields)) :
    ∀ v, P v :=
  PyJson.rec (motive_1 := P) (motive_2 := fun items => ∀ v ∈ items, P v)
    (motive_3 := fun fields => ∀ f ∈ fields, P f.2) (motive_4 := fun f => P f.2)
    null bool int float str list dict
    (fun v hv => by cases hv)
    (fun _ _ hhead htail => List.forall_mem_cons.mpr ⟨hhead, htail⟩)
    (fun v hv => by cases hv)
    (fun _ _ hhead htail => List.forall_mem_cons.mpr ⟨hhead, htail⟩)
    (fun _ _ _ hvalue => hvalue)

/-! ## What can be written -/

/-- The text of the key can be written. -/
def IsKey (rt : JsonRuntime) : PyJson → Prop
  | .int n => rt.admits (toString n.natAbs).toList.length = true
  | .float repr => isFinite repr = true
  | .list _ | .dict _ => False
  | _ => True

/-- The value has a text, lone surrogates apart. -/
inductive Encodable (rt : JsonRuntime) : Nat → PyJson → Prop
  | null {depth : Nat} : Encodable rt depth .null
  | bool {depth : Nat} (b : Bool) : Encodable rt depth (.bool b)
  | int {depth : Nat} {n : Int} (h : rt.admits (toString n.natAbs).toList.length = true) :
    Encodable rt depth (.int n)
  | float {depth : Nat} {repr : String} (h : isFinite repr = true) :
    Encodable rt depth (.float repr)
  | str {depth : Nat} (s : CodePoints) : Encodable rt depth (.str s)
  | list {depth : Nat} {items : List PyJson} (h : ∀ v ∈ items, Encodable rt depth v) :
    Encodable rt (depth + 1) (.list items)
  | dict {depth : Nat} {fields : List (PyJson × PyJson)}
    (hkeys : areSortable (fields.map Prod.fst) = true) (hkey : ∀ f ∈ fields, IsKey rt f.1)
    (h : ∀ f ∈ fields, Encodable rt depth f.2) : Encodable rt (depth + 1) (.dict fields)

/-- No lone surrogate is in the text of the key. -/
def CleanKey : PyJson → Prop
  | .str s => s.any isSurrogate = false
  | _ => True

/-- No lone surrogate is in a text of the value. -/
inductive Clean : PyJson → Prop
  | null : Clean .null
  | bool (b : Bool) : Clean (.bool b)
  | int (n : Int) : Clean (.int n)
  | float (repr : String) : Clean (.float repr)
  | str {s : CodePoints} (h : s.any isSurrogate = false) : Clean (.str s)
  | list {items : List PyJson} (h : ∀ v ∈ items, Clean v) : Clean (.list items)
  | dict {fields : List (PyJson × PyJson)} (hkey : ∀ f ∈ fields, CleanKey f.1)
    (h : ∀ f ∈ fields, Clean f.2) : Clean (.dict fields)

/-! ## Texts -/

theorem isSurrogate_codePoints (s : String) : (codePoints s).any isSurrogate = false := by
  rw [List.any_eq_false]
  intro n hn
  obtain ⟨c, -, rfl⟩ := List.mem_map.mp hn
  have hvalid : c.toNat < 0xd800 ∨ 0xdfff < c.toNat ∧ c.toNat < 0x110000 := c.valid
  simp only [isSurrogate, Bool.and_eq_true, decide_eq_true_eq]
  omega

theorem isSurrogate_escapePoint (n : Nat) : (escapePoint n).any isSurrogate = isSurrogate n := by
  rw [escapePoint]
  split
  · rename_i hascii
    have hnone : isSurrogate n = false := by
      rw [isSurrogate, Bool.and_eq_false_iff]
      left
      exact decide_eq_false (by omega)
    rw [hnone]
    have htext := isSurrogate_codePoints (String.ofList (Json.escapeChar false (Char.ofNat n)))
    rw [codePoints, String.toList_ofList] at htext
    exact htext
  · rw [List.any_cons, List.any_nil, Bool.or_false]

theorem isSurrogate_quotePoints (s : CodePoints) :
    (quotePoints s).any isSurrogate = s.any isSurrogate := by
  have hbody : (s.flatMap escapePoint).any isSurrogate = s.any isSurrogate := by
    induction s with
    | nil => rfl
    | cons n s ih =>
      rw [List.flatMap_cons, List.any_append, isSurrogate_escapePoint, ih, List.any_cons]
  have hquote : isSurrogate '"'.toNat = false := by decide
  rw [quotePoints, List.cons_append, List.any_cons, List.any_append, hbody, List.any_cons, hquote]
  simp

theorem isSurrogate_separated (texts : List CodePoints) :
    (separated texts).any isSurrogate = texts.any fun text => text.any isSurrogate := by
  have hcomma : isSurrogate ','.toNat = false := by decide
  induction texts with
  | nil => rfl
  | cons text texts ih =>
    by_cases hnil : texts = []
    · rw [hnil, separated, List.intercalate_singleton]
      simp
    · rw [separated, List.intercalate_cons_of_ne_nil hnil, ← separated, List.any_append,
        List.any_append, ih, List.any_cons, List.any_cons, hcomma]
      simp

theorem encodeUtf8_ok_iff {cs : CodePoints} :
    (∃ bytes, encodeUtf8 cs = .ok bytes) ↔ cs.any isSurrogate = false := by
  rw [encodeUtf8, textOf?]
  cases cs.any isSurrogate <;> simp

/-! ## Numbers and keys -/

theorem encodeInt_ok_iff {rt : JsonRuntime} {n : Int} :
    (∃ text, encodeInt rt n = .ok text) ↔
      rt.admits (toString n.natAbs).toList.length = true := by
  rw [encodeInt]
  split <;> simp_all

theorem encodeInt_clean {rt : JsonRuntime} {n : Int} {text : CodePoints}
    (h : encodeInt rt n = .ok text) : text.any isSurrogate = false := by
  rw [encodeInt] at h
  split at h
  · obtain rfl := Except.ok.inj h
    exact isSurrogate_codePoints _
  · cases h

theorem encodeFloat_ok_iff {repr : String} :
    (∃ text, encodeFloat repr = .ok text) ↔ isFinite repr = true := by
  rw [encodeFloat]
  split <;> simp_all

theorem encodeFloat_clean {repr : String} {text : CodePoints}
    (h : encodeFloat repr = .ok text) : text.any isSurrogate = false := by
  rw [encodeFloat] at h
  split at h
  · obtain rfl := Except.ok.inj h
    exact isSurrogate_codePoints _
  · cases h

theorem encodeKey_ok_iff {rt : JsonRuntime} {key : PyJson} :
    (∃ text, encodeKey rt key = .ok text) ↔ IsKey rt key := by
  cases key with
  | int n => exact encodeInt_ok_iff
  | float repr => exact encodeFloat_ok_iff
  | null | bool b | str s => exact ⟨fun _ => trivial, fun _ => ⟨_, rfl⟩⟩
  | list items | dict fields => exact ⟨nofun, fun h => h.elim⟩

theorem encodeKey_clean_iff {rt : JsonRuntime} {key : PyJson} {text : CodePoints}
    (h : encodeKey rt key = .ok text) : text.any isSurrogate = false ↔ CleanKey key := by
  cases key with
  | int n => exact iff_of_true (encodeInt_clean h) trivial
  | float repr => exact iff_of_true (encodeFloat_clean h) trivial
  | null | bool b =>
    obtain rfl := Except.ok.inj h
    exact iff_of_true (isSurrogate_codePoints _) trivial
  | str s =>
    obtain rfl := Except.ok.inj h
    exact Iff.rfl
  | list items | dict fields => cases h

theorem encodeField_ok_iff {rt : JsonRuntime} {key : PyJson} {value : Except DumpError CodePoints} :
    (∃ text, encodeField rt (key, value) = .ok text) ↔
      IsKey rt key ∧ ∃ text, value = .ok text := by
  rw [← encodeKey_ok_iff, encodeField]
  constructor
  · rintro ⟨text, h⟩
    obtain ⟨keyText, hkey, h⟩ := except_bind_ok.mp h
    obtain ⟨valueText, hvalue, -⟩ := except_bind_ok.mp h
    exact ⟨⟨keyText, hkey⟩, valueText, hvalue⟩
  · rintro ⟨⟨keyText, hkey⟩, valueText, rfl⟩
    rw [hkey]
    exact ⟨_, rfl⟩

theorem encodeField_clean_iff {rt : JsonRuntime} {key : PyJson} {value text : CodePoints}
    (h : encodeField rt (key, .ok value) = .ok text) :
    text.any isSurrogate = false ↔ CleanKey key ∧ value.any isSurrogate = false := by
  obtain ⟨keyText, hkey, h⟩ := except_bind_ok.mp h
  obtain rfl := Except.ok.inj h
  have hcolon : isSurrogate ':'.toNat = false := by decide
  rw [← encodeKey_clean_iff hkey, List.any_append, isSurrogate_quotePoints, List.any_cons, hcolon]
  simp

/-! ## Values -/

variable {rt : JsonRuntime}

theorem encodeItems_eq (depth : Nat) (items : List PyJson) :
    encodeItems rt depth items = items.mapM (encode rt depth) := by
  induction items with
  | nil => rfl
  | cons v items ih =>
    rw [encodeItems, ih, List.mapM_cons]

theorem encodeValues_eq (depth : Nat) (fields : List (PyJson × PyJson)) :
    encodeValues rt depth fields = fields.map fun f => (f.1, encode rt depth f.2) := by
  induction fields with
  | nil => rfl
  | cons f fields ih => rw [encodeValues, ih, List.map_cons]

/-- The fields in the order of their keys. -/
def sortedFields (rt : JsonRuntime) (depth : Nat) (fields : List (PyJson × PyJson)) :
    List (PyJson × Except DumpError CodePoints) :=
  (fields.map fun f => (f.1, encode rt depth f.2)).insertionSort fun f g =>
    keyLe rt f.1 g.1 = true

theorem mem_sortedFields {depth : Nat} {fields : List (PyJson × PyJson)}
    {entry : PyJson × Except DumpError CodePoints} :
    entry ∈ sortedFields rt depth fields ↔ ∃ f ∈ fields, entry = (f.1, encode rt depth f.2) := by
  rw [sortedFields, List.mem_insertionSort, List.mem_map]
  exact exists_congr fun f => and_congr_right fun _ => eq_comm

theorem encode_dict (depth : Nat) (fields : List (PyJson × PyJson)) :
    encode rt (depth + 1) (.dict fields) =
      if areSortable (fields.map Prod.fst) then
        ((sortedFields rt depth fields).mapM (encodeField rt)) >>= fun texts =>
          return '{'.toNat :: separated texts ++ ['}'.toNat]
      else .error .unsortable := by
  rw [encode, encodeValues_eq, sortKeys, List.map_map]
  have hkeys : fields.map (Prod.fst ∘ fun f => (f.1, encode rt depth f.2)) = fields.map Prod.fst :=
    rfl
  rw [hkeys]
  split
  · rfl
  · rfl

theorem exists_mapM_ok_iff {α β ε : Type} {f : α → Except ε β} {l : List α} :
    (∃ bs, l.mapM f = .ok bs) ↔ ∀ a ∈ l, ∃ b, f a = .ok b := by
  refine ⟨?_, Traverse.exists_mapM_ok⟩
  rintro ⟨bs, h⟩ a ha
  obtain ⟨b, -, hb⟩ := Traverse.exists_right_of_forall₂ (Traverse.mapM_eq_ok.mp h) a ha
  exact ⟨b, hb⟩

theorem encode_ok_iff (depth : Nat) (v : PyJson) :
    (∃ text, encode rt depth v = .ok text) ↔ Encodable rt depth v := by
  induction v using induction generalizing depth with
  | null => exact ⟨fun _ => .null, fun _ => ⟨_, by rw [encode]⟩⟩
  | bool b => exact ⟨fun _ => .bool b, fun _ => ⟨_, by rw [encode]⟩⟩
  | int n =>
    rw [encode, encodeInt_ok_iff]
    exact ⟨.int, fun h => by cases h; assumption⟩
  | float repr =>
    rw [encode, encodeFloat_ok_iff]
    exact ⟨.float, fun h => by cases h; assumption⟩
  | str s => exact ⟨fun _ => .str s, fun _ => ⟨_, by rw [encode]⟩⟩
  | list items ih =>
    cases depth with
    | zero =>
      rw [encode]
      exact ⟨nofun, nofun⟩
    | succ depth =>
      have hitems : (∃ texts, items.mapM (encode rt depth) = .ok texts) ↔
          ∀ v ∈ items, Encodable rt depth v := by
        rw [exists_mapM_ok_iff]
        exact forall₂_congr fun v hv => ih v hv depth
      rw [encode, encodeItems_eq]
      constructor
      · rintro ⟨text, h⟩
        obtain ⟨texts, htexts, -⟩ := except_bind_ok.mp h
        exact .list (hitems.mp ⟨texts, htexts⟩)
      · intro h
        cases h with
        | list h =>
          obtain ⟨texts, htexts⟩ := hitems.mpr h
          rw [htexts]
          exact ⟨_, rfl⟩
  | dict fields ih =>
    cases depth with
    | zero =>
      rw [encode]
      exact ⟨nofun, nofun⟩
    | succ depth =>
      have hfields : (∃ texts, (sortedFields rt depth fields).mapM (encodeField rt) = .ok texts) ↔
          ∀ f ∈ fields, IsKey rt f.1 ∧ Encodable rt depth f.2 := by
        rw [exists_mapM_ok_iff]
        constructor
        · intro h f hf
          have := encodeField_ok_iff.mp (h _ (mem_sortedFields.mpr ⟨f, hf, rfl⟩))
          exact ⟨this.1, (ih f hf depth).mp this.2⟩
        · intro h entry hentry
          obtain ⟨f, hf, rfl⟩ := mem_sortedFields.mp hentry
          exact encodeField_ok_iff.mpr ⟨(h f hf).1, (ih f hf depth).mpr (h f hf).2⟩
      rw [encode_dict]
      constructor
      · rintro ⟨text, h⟩
        split at h
        · rename_i hkeys
          obtain ⟨texts, htexts, -⟩ := except_bind_ok.mp h
          have hall := hfields.mp ⟨texts, htexts⟩
          exact .dict hkeys (fun f hf => (hall f hf).1) fun f hf => (hall f hf).2
        · cases h
      · intro h
        cases h with
        | dict hkeys hkey h =>
          obtain ⟨texts, htexts⟩ := hfields.mpr fun f hf => ⟨hkey f hf, h f hf⟩
          rw [if_pos hkeys, htexts]
          exact ⟨_, rfl⟩

/-- Texts are clean together if what each of them is made of is. -/
theorem mapM_clean_iff {α ε : Type} {P : α → Prop} {f : α → Except ε CodePoints} {l : List α}
    {texts : List CodePoints}
    (hf : ∀ a ∈ l, ∀ text, f a = .ok text → (text.any isSurrogate = false ↔ P a))
    (h : l.mapM f = .ok texts) :
    (texts.any fun text => text.any isSurrogate) = false ↔ ∀ a ∈ l, P a := by
  induction l generalizing texts with
  | nil =>
    obtain rfl := Except.ok.inj h
    exact iff_of_true rfl (List.forall_mem_nil P)
  | cons a l ih =>
    rw [List.mapM_cons] at h
    obtain ⟨text, htext, h⟩ := except_bind_ok.mp h
    obtain ⟨rest, hrest, h⟩ := except_bind_ok.mp h
    obtain rfl := Except.ok.inj h
    rw [List.any_cons, Bool.or_eq_false_iff, hf a List.mem_cons_self text htext,
      ih (fun b hb => hf b (List.mem_cons_of_mem a hb)) hrest, List.forall_mem_cons]

theorem any_wrapped {left right : Nat} (hleft : isSurrogate left = false)
    (hright : isSurrogate right = false) (texts : List CodePoints) :
    (left :: separated texts ++ [right]).any isSurrogate =
      texts.any fun text => text.any isSurrogate := by
  rw [List.cons_append, List.any_cons, List.any_append, isSurrogate_separated, List.any_cons, hleft,
    hright]
  simp

/-- A text that is written has lone surrogates exactly if a text of the value has. -/
theorem encode_clean_iff {depth : Nat} {v : PyJson} {text : CodePoints}
    (h : encode rt depth v = .ok text) : text.any isSurrogate = false ↔ Clean v := by
  induction v using induction generalizing depth text with
  | null =>
    rw [encode] at h
    obtain rfl := Except.ok.inj h
    exact iff_of_true (isSurrogate_codePoints _) .null
  | bool b =>
    rw [encode] at h
    obtain rfl := Except.ok.inj h
    exact iff_of_true (isSurrogate_codePoints _) (.bool b)
  | int n =>
    rw [encode] at h
    exact iff_of_true (encodeInt_clean h) (.int n)
  | float repr =>
    rw [encode] at h
    exact iff_of_true (encodeFloat_clean h) (.float repr)
  | str s =>
    rw [encode] at h
    obtain rfl := Except.ok.inj h
    rw [isSurrogate_quotePoints]
    exact ⟨.str, fun h => by cases h; assumption⟩
  | list items ih =>
    cases depth with
    | zero =>
      rw [encode] at h
      cases h
    | succ depth =>
      rw [encode, encodeItems_eq] at h
      obtain ⟨texts, htexts, h⟩ := except_bind_ok.mp h
      obtain rfl := Except.ok.inj h
      rw [any_wrapped (by decide) (by decide),
        mapM_clean_iff (fun v hv text htext => ih v hv htext) htexts]
      exact ⟨.list, fun h => by cases h; assumption⟩
  | dict fields ih =>
    cases depth with
    | zero =>
      rw [encode] at h
      cases h
    | succ depth =>
      rw [encode_dict] at h
      split at h
      · obtain ⟨texts, htexts, h⟩ := except_bind_ok.mp h
        obtain rfl := Except.ok.inj h
        have hfield : ∀ entry ∈ sortedFields rt depth fields, ∀ text,
            encodeField rt entry = .ok text → (text.any isSurrogate = false ↔
              ∀ f ∈ fields, entry = (f.1, encode rt depth f.2) → CleanKey f.1 ∧ Clean f.2) := by
          intro entry hentry text htext
          obtain ⟨f, hf, rfl⟩ := mem_sortedFields.mp hentry
          obtain ⟨value, hvalue⟩ := (encodeField_ok_iff.mp ⟨text, htext⟩).2
          rw [hvalue] at htext
          rw [encodeField_clean_iff htext, ih f hf hvalue]
          constructor
          · rintro ⟨hkey, hclean⟩ g hg heq
            obtain ⟨hfst, hsnd⟩ := Prod.ext_iff.mp heq
            rw [hvalue] at hsnd
            refine ⟨?_, ?_⟩
            · rw [← show f.1 = g.1 from hfst]
              exact hkey
            · exact (ih g hg hsnd.symm).mp ((ih f hf hvalue).mpr hclean)
          · intro h
            exact h f hf rfl
        rw [any_wrapped (by decide) (by decide), mapM_clean_iff hfield htexts]
        constructor
        · intro h
          have hall : ∀ f ∈ fields, CleanKey f.1 ∧ Clean f.2 := fun f hf =>
            h _ (mem_sortedFields.mpr ⟨f, hf, rfl⟩) f hf rfl
          exact .dict (fun f hf => (hall f hf).1) fun f hf => (hall f hf).2
        · intro h entry _ f hf _
          cases h with
          | dict hkey h => exact ⟨hkey f hf, h f hf⟩
      · cases h

/-- A value is written exactly when it has a text without lone surrogates. -/
theorem dumps_ok_iff (v : PyJson) :
    (∃ bytes, dumps rt v = .ok bytes) ↔ Encodable rt rt.maxNesting v ∧ Clean v := by
  rw [dumps]
  constructor
  · rintro ⟨bytes, h⟩
    obtain ⟨text, htext, h⟩ := except_bind_ok.mp h
    exact ⟨(encode_ok_iff _ v).mp ⟨text, htext⟩,
      (encode_clean_iff htext).mp (encodeUtf8_ok_iff.mp ⟨bytes, h⟩)⟩
  · rintro ⟨hencodable, hclean⟩
    obtain ⟨text, htext⟩ := (encode_ok_iff _ v).mpr hencodable
    rw [htext]
    exact encodeUtf8_ok_iff.mpr ((encode_clean_iff htext).mpr hclean)

end PyJson
