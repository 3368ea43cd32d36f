import Schemata.Proofs.Json.NumberWords
import Schemata.Proofs.Json.Tree
import Schemata.Yaml.Conversion

/-!
# The JSON form of a YAML value

Two things keep a value from having a JSON form: a key without a text, and a number that is not
finite.  Both count only where the conversion comes.  It does not look into keys, whose numbers may
be anything, and it passes through tags; so it makes no difference if these are dropped before.

The other way, a JSON value is a YAML value as it stands, and its JSON form is that JSON value.
-/

namespace Schemata.Yaml

/-! ## Numbers -/

namespace Number

/-- A finite number keeps its kind and its value. -/
@[simp] theorem toJson_finite (n : Json.Number) : (finite n).toJson = .ok n := by
  rw [toJson]
  cases hsigned : n.signed? with
  | some i =>
    dsimp only
    rw [Json.Number.ofSigned_of_signed? hsigned]
  | none =>
    cases hunsigned : n.unsigned? with
    | some u =>
      dsimp only
      rw [Json.Number.ofUnsigned_of_unsigned? hunsigned]
    | none =>
      obtain ⟨x, rfl⟩ := Json.Number.exists_float_of_none hsigned hunsigned
      rfl

theorem exists_toJson_iff (n : Number) :
    (∃ m, n.toJson = .ok m) ↔ n ≠ nan ∧ ∀ negative, n ≠ infinity negative := by
  cases n with
  | finite n => simp
  | infinity negative => simp [toJson]
  | nan => simp [toJson]

end Number

namespace Value

/-! ## Trees -/

/-- Induction over the sequences, the values of mappings and the tags of a value. -/
@[elab_as_elim]
theorem treeInduction {motive : Value → Prop}
    (null : motive .null) (bool : ∀ b, motive (.bool b)) (number : ∀ n, motive (.number n))
    (string : ∀ s, motive (.string s))
    (sequence : ∀ items, (∀ v ∈ items, motive v) → motive (.sequence items))
    (mapping : ∀ entries : List (Value × Value), (∀ entry ∈ entries, motive entry.2) →
      motive (.mapping entries))
    (tagged : ∀ tag v, motive v → motive (.tagged tag v)) : ∀ v, motive v
  | .null => null
  | .bool b => bool b
  | .number n => number n
  | .string s => string s
  | .sequence items =>
    sequence items fun v _ => treeInduction null bool number string sequence mapping tagged v
  | .mapping entries =>
    mapping entries fun entry hentry => by
      have hsize := Json.sizeOf_snd_lt_of_mem hentry
      exact treeInduction null bool number string sequence mapping tagged entry.2
  | .tagged tag v =>
    tagged tag v (treeInduction null bool number string sequence mapping tagged v)
termination_by v => sizeOf v

/-- The value itself, or a value at any depth of it, in its keys as well. -/
inductive Within (w : Value) : Value → Prop
  | self : Within w w
  | item {v : Value} {items : List Value} : v ∈ items → Within w v → Within w (.sequence items)
  | key {entry : Value × Value} {entries : List (Value × Value)} :
      entry ∈ entries → Within w entry.1 → Within w (.mapping entries)
  | value {entry : Value × Value} {entries : List (Value × Value)} :
      entry ∈ entries → Within w entry.2 → Within w (.mapping entries)
  | content {tag : String} {v : Value} : Within w v → Within w (.tagged tag v)

/-- The value itself, or a value at any depth of it but in no key: the places of values. -/
inductive InPlace (w : Value) : Value → Prop
  | self : InPlace w w
  | item {v : Value} {items : List Value} : v ∈ items → InPlace w v → InPlace w (.sequence items)
  | value {entry : Value × Value} {entries : List (Value × Value)} :
      entry ∈ entries → InPlace w entry.2 → InPlace w (.mapping entries)
  | content {tag : String} {v : Value} : InPlace w v → InPlace w (.tagged tag v)

/-- The values that are no key of an object. -/
inductive Keyless : Value → Prop
  | null : Keyless .null
  | sequence (items : List Value) : Keyless (.sequence items)
  | mapping (entries : List (Value × Value)) : Keyless (.mapping entries)
  | tagged (tag : String) (v : Value) : Keyless (.tagged tag v)

theorem keyless_iff (k : Value) : k.Keyless ↔ k.keyText? = none := by
  constructor
  · rintro (_ | _ | _ | _) <;> rfl
  · intro h
    cases k with
    | null => exact .null
    | sequence items => exact .sequence items
    | mapping entries => exact .mapping entries
    | tagged tag v => exact .tagged tag v
    | bool b => simp [keyText?] at h
    | number n => simp [keyText?] at h
    | string s => simp [keyText?] at h

/-- What stands for a key has nothing in it. -/
theorem eq_of_within {w k : Value} (hkey : ¬ k.Keyless) (h : Within w k) : w = k := by
  cases h with
  | self => rfl
  | item => exact absurd (.sequence _) hkey
  | key => exact absurd (.mapping _) hkey
  | value => exact absurd (.mapping _) hkey
  | content => exact absurd (.tagged _ _) hkey

/-! ## Values like those of JSON -/

/-- No mapping has a key that is none of an object, and no number is infinite or not a number.
Mappings count at any depth, numbers in the places of values. -/
structure JsonLike (y : Value) : Prop where
  keys : ∀ entries, Within (.mapping entries) y → ∀ entry ∈ entries, ¬ entry.1.Keyless
  numbers : ∀ n, InPlace (.number n) y → n ≠ .nan ∧ ∀ negative, n ≠ .infinity negative

theorem jsonLike_number_iff {n : Number} :
    JsonLike (.number n) ↔ n ≠ .nan ∧ ∀ negative, n ≠ .infinity negative := by
  constructor
  · intro h
    exact h.numbers n .self
  · intro h
    refine ⟨fun entries hwithin => ?_, fun m hplace => ?_⟩
    · cases hwithin
    · cases hplace with
      | self => exact h

theorem jsonLike_sequence_iff {items : List Value} :
    JsonLike (.sequence items) ↔ ∀ v ∈ items, JsonLike v := by
  constructor
  · intro h v hv
    exact ⟨fun entries hwithin => h.keys entries (.item hv hwithin),
      fun n hplace => h.numbers n (.item hv hplace)⟩
  · intro h
    refine ⟨fun entries hwithin => ?_, fun n hplace => ?_⟩
    · cases hwithin with
      | item hv hwithin => exact (h _ hv).keys entries hwithin
    · cases hplace with
      | item hv hplace => exact (h _ hv).numbers n hplace

theorem jsonLike_mapping_iff {entries : List (Value × Value)} :
    JsonLike (.mapping entries) ↔ ∀ entry ∈ entries, ¬ entry.1.Keyless ∧ JsonLike entry.2 := by
  constructor
  · intro h entry hentry
    exact ⟨h.keys entries .self entry hentry,
      fun inner hwithin => h.keys inner (.value hentry hwithin),
      fun n hplace => h.numbers n (.value hentry hplace)⟩
  · intro h
    refine ⟨fun inner hwithin => ?_, fun n hplace => ?_⟩
    · cases hwithin with
      | self => exact fun entry hentry => (h entry hentry).1
      | key hentry hwithin =>
        -- A mapping inside a key would make it keyless.
        have hkey := (h _ hentry).1
        rw [← eq_of_within hkey hwithin] at hkey
        exact absurd (.mapping inner) hkey
      | value hentry hwithin => exact (h _ hentry).2.keys inner hwithin
    · cases hplace with
      | value hentry hplace => exact (h _ hentry).2.numbers n hplace

theorem jsonLike_tagged_iff {tag : String} {v : Value} : JsonLike (.tagged tag v) ↔ JsonLike v := by
  constructor
  · intro h
    exact ⟨fun entries hwithin => h.keys entries (.content hwithin),
      fun n hplace => h.numbers n (.content hplace)⟩
  · intro h
    refine ⟨fun entries hwithin => ?_, fun n hplace => ?_⟩
    · cases hwithin with
      | content hwithin => exact h.keys entries hwithin
    · cases hplace with
      | content hplace => exact h.numbers n hplace

/-! ## When there is a JSON form -/

/-- The value has a JSON form. -/
def Converts (y : Value) : Prop :=
  ∃ json, y.toJson = .ok json

section Outcomes

variable {ε α β γ : Type} {x : Except ε α} {y : Except ε β}

theorem exists_map_eq_ok_iff {f : α → γ} :
    (∃ c, (do return f (← x)) = .ok c) ↔ ∃ a, x = .ok a := by
  cases x <;> simp [bind, Except.bind, pure, Except.pure]

theorem exists_map₂_eq_ok_iff {f : α → β → γ} :
    (∃ c, (do let a ← x; return f a (← y)) = .ok c) ↔ (∃ a, x = .ok a) ∧ ∃ b, y = .ok b := by
  cases x <;> cases y <;> simp [bind, Except.bind, pure, Except.pure]

end Outcomes

theorem converts_number_iff {n : Number} : Converts (.number n) ↔ ∃ m, n.toJson = .ok m := by
  rw [Converts, toJson]
  exact exists_map_eq_ok_iff

theorem exists_itemsToJson_iff {items : List Value} :
    (∃ jsons, itemsToJson items = .ok jsons) ↔ ∀ v ∈ items, Converts v := by
  induction items with
  | nil => simp [itemsToJson]
  | cons v rest ih =>
    rw [List.forall_mem_cons, ← ih, itemsToJson]
    exact exists_map₂_eq_ok_iff

theorem converts_sequence_iff {items : List Value} :
    Converts (.sequence items) ↔ ∀ v ∈ items, Converts v := by
  rw [← exists_itemsToJson_iff, Converts, toJson]
  exact exists_map_eq_ok_iff

theorem exists_entriesToJson_iff {entries : List (Value × Value)} :
    (∃ members, entriesToJson entries = .ok members) ↔
      ∀ entry ∈ entries, ¬ entry.1.Keyless ∧ Converts entry.2 := by
  induction entries with
  | nil => simp [entriesToJson]
  | cons entry rest ih =>
    obtain ⟨k, v⟩ := entry
    rw [List.forall_mem_cons, ← ih, entriesToJson, keyless_iff]
    cases k.keyText? with
    | none => simp
    | some key =>
      have hkey : ¬ some key = none := by simp
      rw [and_iff_right hkey]
      exact exists_map₂_eq_ok_iff

theorem converts_mapping_iff {entries : List (Value × Value)} :
    Converts (.mapping entries) ↔ ∀ entry ∈ entries, ¬ entry.1.Keyless ∧ Converts entry.2 := by
  rw [← exists_entriesToJson_iff, Converts, toJson]
  exact exists_map_eq_ok_iff

/-- The value has a JSON form exactly if it is like a JSON value. -/
theorem converts_iff_jsonLike (y : Value) : y.Converts ↔ y.JsonLike := by
  induction y using treeInduction with
  | number n =>
    rw [converts_number_iff, jsonLike_number_iff, Number.exists_toJson_iff]
  | sequence items ih =>
    rw [converts_sequence_iff, jsonLike_sequence_iff]
    exact forall₂_congr ih
  | mapping entries ih =>
    rw [converts_mapping_iff, jsonLike_mapping_iff]
    exact forall₂_congr fun entry hentry => and_congr_right fun _ => ih entry hentry
  | tagged tag v ih =>
    rw [jsonLike_tagged_iff, ← ih, Converts, Converts, toJson]
  | _ =>
    refine iff_of_true ⟨_, rfl⟩ ⟨fun entries hwithin => ?_, fun n hplace => ?_⟩
    · cases hwithin
    · cases hplace

/-! ## Dropping tags -/

mutual

/-- The value without the tags in the places of values.  Keys stay as they are. -/
def dropTags : Value → Value
  | sequence items => sequence (dropItemTags items)
  | mapping entries => mapping (dropEntryTags entries)
  | tagged _ value => dropTags value
  | v => v

/-- `dropTags` on every item. -/
def dropItemTags : List Value → List Value
  | [] => []
  | v :: rest => dropTags v :: dropItemTags rest

/-- `dropTags` on the value of every entry. -/
def dropEntryTags : List (Value × Value) → List (Value × Value)
  | [] => []
  | (k, v) :: rest => (k, dropTags v) :: dropEntryTags rest

end

theorem dropItemTags_eq_map (items : List Value) : dropItemTags items = items.map dropTags := by
  induction items with
  | nil => rfl
  | cons v rest ih => rw [dropItemTags, ih, List.map_cons]

theorem dropEntryTags_eq_map (entries : List (Value × Value)) :
    dropEntryTags entries = entries.map fun entry => (entry.1, dropTags entry.2) := by
  induction entries with
  | nil => rfl
  | cons entry rest ih => rw [dropEntryTags, ih, List.map_cons]

theorem not_inPlace_tagged_dropTags (tag : String) (w y : Value) :
    ¬ InPlace (.tagged tag w) y.dropTags := by
  induction y using treeInduction with
  | sequence items ih =>
    rw [dropTags, dropItemTags_eq_map]
    rintro (_ | ⟨hmem, hplace⟩)
    obtain ⟨v, hv, rfl⟩ := List.mem_map.mp hmem
    exact ih v hv hplace
  | mapping entries ih =>
    rw [dropTags, dropEntryTags_eq_map]
    rintro (_ | _ | ⟨hmem, hplace⟩)
    obtain ⟨entry, hentry, rfl⟩ := List.mem_map.mp hmem
    exact ih entry hentry hplace
  | tagged _ v ih => rwa [dropTags]
  | _ => nofun

theorem itemsToJson_dropItemTags {items : List Value}
    (h : ∀ v ∈ items, v.dropTags.toJson = v.toJson) :
    itemsToJson (dropItemTags items) = itemsToJson items := by
  induction items with
  | nil => rfl
  | cons v rest ih =>
    rw [List.forall_mem_cons] at h
    rw [dropItemTags, itemsToJson, itemsToJson, h.1, ih h.2]

theorem entriesToJson_dropEntryTags {entries : List (Value × Value)}
    (h : ∀ entry ∈ entries, entry.2.dropTags.toJson = entry.2.toJson) :
    entriesToJson (dropEntryTags entries) = entriesToJson entries := by
  induction entries with
  | nil => rfl
  | cons entry rest ih =>
    rw [List.forall_mem_cons] at h
    rw [dropEntryTags, entriesToJson, entriesToJson, h.1, ih h.2]

theorem toJson_dropTags (y : Value) : y.dropTags.toJson = y.toJson := by
  induction y using treeInduction with
  | sequence items ih => rw [dropTags, toJson, toJson, itemsToJson_dropItemTags ih]
  | mapping entries ih => rw [dropTags, toJson, toJson, entriesToJson_dropEntryTags ih]
  | tagged tag v ih => rw [dropTags, toJson, ih]
  | _ => rfl

/-! ## JSON values as YAML values -/

mutual

/-- The JSON value as a YAML value. -/
def ofJson : Json.Value → Value
  | .null => .null
  | .bool b => .bool b
  | .number n => .number (.finite n)
  | .string s => .string s
  | .array items => .sequence (ofJsonItems items)
  | .object members => .mapping (ofJsonMembers members)

/-- `ofJson` on every item. -/
def ofJsonItems : List Json.Value → List Value
  | [] => []
  | v :: rest => ofJson v :: ofJsonItems rest

/-- The members as entries, with their keys as strings. -/
def ofJsonMembers : List (String × Json.Value) → List (Value × Value)
  | [] => []
  | (key, v) :: rest => (.string key, ofJson v) :: ofJsonMembers rest

end

theorem itemsToJson_ofJsonItems {items : List Json.Value}
    (h : ∀ v ∈ items, (ofJson v).toJson = .ok v) :
    itemsToJson (ofJsonItems items) = .ok items := by
  induction items with
  | nil => rfl
  | cons v rest ih =>
    rw [List.forall_mem_cons] at h
    rw [ofJsonItems, itemsToJson, h.1, ih h.2]
    rfl

theorem entriesToJson_ofJsonMembers {members : Json.Members}
    (h : ∀ entry ∈ members, (ofJson entry.2).toJson = .ok entry.2) :
    entriesToJson (ofJsonMembers members) = .ok members := by
  induction members with
  | nil => rfl
  | cons entry rest ih =>
    rw [List.forall_mem_cons] at h
    rw [ofJsonMembers, entriesToJson, h.1, ih h.2]
    rfl

/-- A JSON value comes back from its YAML value, unless keys had to be merged. -/
theorem toJson_ofJson {v : Json.Value} (hu : v.Unique) : (ofJson v).toJson = .ok v := by
  induction v using Json.Value.treeInduction with
  | number n =>
    rw [ofJson, toJson, Number.toJson_finite]
    rfl
  | array items ih =>
    have hitems := itemsToJson_ofJsonItems fun v hv =>
      ih v hv (Json.Value.unique_array_iff.mp hu v hv)
    rw [ofJson, toJson, hitems]
    rfl
  | object members ih =>
    obtain ⟨hkeys, hvalues⟩ := Json.Value.unique_object_iff.mp hu
    have hmembers := entriesToJson_ofJsonMembers fun entry hentry =>
      ih entry hentry (hvalues entry hentry)
    have hlist := Json.Members.ofList_of_uniqueKeys hkeys
    rw [ofJson, toJson, hmembers]
    exact congrArg (fun members => Except.ok (Json.Value.object members)) hlist
  | _ => rfl

/-- A value has a JSON form exactly if no mapping at any depth has a null, a sequence, a mapping or
a tagged value for a key, and no number in the place of a value is infinite or not a number.  It has
the same JSON form, or fails alike, once it has no tags in the places of values.  And every JSON
value in which no object repeats a key is the JSON form of the YAML value that it is. -/
theorem converts_exactly_jsonLike (y : Value) :
    ((∃ json, y.toJson = .ok json) ↔
      (∀ entries, Within (.mapping entries) y → ∀ entry ∈ entries, ¬ entry.1.Keyless) ∧
      ∀ n, InPlace (.number n) y → n ≠ .nan ∧ ∀ negative, n ≠ .infinity negative) ∧
    ((∀ tag w, ¬ InPlace (.tagged tag w) y.dropTags) ∧ y.dropTags.toJson = y.toJson) ∧
    ∀ v : Json.Value, v.Unique → (ofJson v).toJson = .ok v := by
  refine ⟨?_, ⟨fun tag w => not_inPlace_tagged_dropTags tag w y, toJson_dropTags y⟩,
    fun v hu => toJson_ofJson hu⟩
  constructor
  · intro hconverts
    have hlike := (converts_iff_jsonLike y).mp hconverts
    exact ⟨hlike.keys, hlike.numbers⟩
  · rintro ⟨hkeys, hnumbers⟩
    exact (converts_iff_jsonLike y).mpr ⟨hkeys, hnumbers⟩

/-- What is not a number may still stand for a key. -/
example : (mapping [(number .nan, tagged "t" null)]).toJson = .ok (.object [(".nan", .null)]) := rfl

end Value
end Schemata.Yaml
