import Schemata.Proofs.Build
import Schemata.Proofs.Json.RoundTrip
import Schemata.Proofs.Name
import Schemata.Proofs.Node
import Schemata.Registry

/-!
# Stored documents and the names they refer to

A document refers to the normal names of the references that its nodes make.  What a build can
reach is told by this relation on names, whatever way the build takes.

The members of a document, and those of a built text, are read from text: they hold each key once
and are not nested too deeply.
-/

namespace Schemata

open Json (Members Value depthLimit)

theorem Utf8.fromUTF8?_toUTF8 (text : String) : String.fromUTF8? text.toUTF8 = some text := by
  unfold String.fromUTF8?
  rw [String.toUTF8_eq_toByteArray, dif_pos text.isValidUTF8]
  rfl

theorem Utf8.decode_toUTF8 (text : String) : Utf8.decode text.toUTF8 = .ok text := by
  unfold Utf8.decode
  rw [fromUTF8?_toUTF8]

/-! ## Parsing a document -/

section Parsing

variable {name text : String} {members : Members}

theorem parseDocument_eq_ok :
    parseDocument name text = .ok members ↔ Value.read text = .ok (.object members) := by
  unfold parseDocument
  split <;> simp_all

/-- A text is no document only because it cannot be parsed. -/
theorem exists_fault_of_parseDocument {e : SchemaError} (h : parseDocument name text = .error e) :
    ∃ fault, e = .unparsable name fault := by
  unfold parseDocument at h
  split at h
  · simp at h
  · exact ⟨_, (Except.error.inj h).symm⟩
  · exact ⟨_, (Except.error.inj h).symm⟩

theorem unique_of_parseDocument (h : parseDocument name text = .ok members) :
    Value.Unique (.object members) :=
  Value.unique_of_read (parseDocument_eq_ok.mp h)

theorem nesting_le_of_parseDocument (h : parseDocument name text = .ok members) :
    Value.nesting (.object members) ≤ depthLimit :=
  Value.nesting_le_of_read (parseDocument_eq_ok.mp h)

theorem parseDocument_congr {text' : String} (h : Value.read text = Value.read text') :
    parseDocument name text = parseDocument name text' := by
  unfold parseDocument
  rw [h]

theorem parseDocument_of_fault {fault : Json.Fault} (h : Value.read text = .error fault) :
    parseDocument name text = .error (.unparsable name (.json fault)) := by
  unfold parseDocument
  rw [h]

/-- The document that is read from the text of a tree. -/
theorem parseDocument_compact (hu : Value.Unique (.object members))
    (hnesting : Value.nesting (.object members) ≤ depthLimit) :
    parseDocument name (Value.object members).compact = .ok (Value.rereadMembers members) := by
  rw [parseDocument_eq_ok, Value.read_compact hu hnesting, Value.reread]

theorem parseDocument_compact_of_deep (hnesting : depthLimit < Value.nesting (.object members)) :
    ∃ fault, parseDocument name (Value.object members).compact =
      .error (.unparsable name (.json fault)) := by
  obtain ⟨fault, hfault⟩ := Value.read_compact_of_deep hnesting
  exact ⟨fault, parseDocument_of_fault hfault⟩

/-- A built text that can be parsed holds the tree, read back. -/
theorem eq_of_parseDocument_compact {built : Members} (hu : Value.Unique (.object built))
    (h : parseDocument name (Value.object built).compact = .ok members) :
    members = Value.rereadMembers built ∧ Value.nesting (.object built) ≤ depthLimit := by
  by_cases hnesting : Value.nesting (.object built) ≤ depthLimit
  · rw [parseDocument_compact hu hnesting, Except.ok.injEq] at h
    exact ⟨h.symm, hnesting⟩
  · obtain ⟨fault, hfault⟩ : ∃ fault, parseDocument name (Value.object built).compact = _ :=
      parseDocument_compact_of_deep (Nat.lt_of_not_le hnesting)
    rw [hfault] at h
    simp at h

end Parsing

namespace Registry

open Build (Ends)

/-! ## Stored documents -/

/-- The texts of a list, each under its name. -/
def lookupText (texts : List (String × String)) (name : String) : Lookup :=
  .ok ((texts.lookup name).map String.toUTF8)

/-- A registry on the documents of a list. -/
def ofTexts (texts : List (String × String)) : Registry Unit :=
  .ofDocuments fun _ => lookupText texts

variable {σ : Type} (r : Registry σ) (s : σ)

/-- What loading a document answers in a state. -/
def loaded (name : String) : Except SchemaError (String × Members) :=
  match r.documents s name with
  | .error e => .error (.store e)
  | .ok none => .error (.notFound name)
  | .ok (some bytes) =>
    match Utf8.decode bytes with
    | .error fault => .error (.unparsable name (.encoding fault))
    | .ok text => (parseDocument name text).map fun members => (text, members)

/-- The stored document of a name, if there is one that is an object. -/
def document? (name : String) : Option Members :=
  match r.loaded s name with
  | .ok (_, members) => some members
  | .error _ => none

variable {r s}

/-- Why a document cannot be loaded. -/
theorem loaded_error_cases {name : String} {e : SchemaError} (h : r.loaded s name = .error e) :
    (∃ source, e = .store source) ∨ e = .notFound name ∨ ∃ fault, e = .unparsable name fault := by
  unfold loaded at h
  split at h
  · exact Or.inl ⟨_, (Except.error.inj h).symm⟩
  · exact Or.inr (Or.inl (Except.error.inj h).symm)
  · split at h
    · exact Or.inr (Or.inr ⟨_, (Except.error.inj h).symm⟩)
    · rename_i text _
      cases hparse : parseDocument name text with
      | ok members => simp [hparse, Except.map] at h
      | error e' =>
        simp only [hparse, Except.map, Except.error.injEq] at h
        exact Or.inr (Or.inr (h ▸ exists_fault_of_parseDocument hparse))

theorem ends_load {name : String} {t : σ} {result : Except SchemaError (Option ByteArray)} :
    Ends (r.load name) s result t ↔ result = (r.documents s name).mapError .store ∧ t = s := by
  unfold load
  rw [Build.ends_bind]
  cases hdocument : r.documents s name <;> simp [hdocument]

theorem ends_loadDocument {name : String} {t : σ} {result : Except SchemaError (String × Members)} :
    Ends (r.loadDocument name) s result t ↔ result = r.loaded s name ∧ t = s := by
  unfold loadDocument loaded
  rw [Build.ends_bind]
  cases hdocument : r.documents s name with
  | error e => simp [ends_load, hdocument, and_comm]
  | ok stored =>
    cases stored with
    | none => simp [ends_load, hdocument]
    | some bytes =>
      cases hdecode : Utf8.decode bytes with
      | error fault => simp [ends_load, hdocument, hdecode]
      | ok text =>
        cases hparse : parseDocument name text with
        | error e =>
          simp [ends_load, hdocument, hdecode, hparse, Build.ends_map, Except.map,
            and_comm]
        | ok members =>
          simp [ends_load, hdocument, hdecode, hparse, Build.ends_map, Except.map,
            and_comm]

theorem document?_eq_some {name : String} {members : Members} :
    r.document? s name = some members ↔ ∃ text, r.loaded s name = .ok (text, members) := by
  unfold document?
  cases r.loaded s name with
  | error e => simp
  | ok p => simp [Prod.ext_iff]

/-- What is made of a document ends with the error of loading it, or as its members demand. -/
theorem ends_loadDocument_bind {α : Type} {name : String} {f : Members → Build σ α} {t : σ}
    {result : Except SchemaError α} :
    Ends (do let loaded ← r.loadDocument name; f loaded.2) s result t ↔
      (∃ e, r.loaded s name = .error e ∧ result = .error e ∧ t = s) ∨
        ∃ document, r.document? s name = some document ∧ Ends (f document) s result t := by
  rw [Build.ends_bind]
  unfold document?
  cases hloaded : r.loaded s name with
  | error e => simp [ends_loadDocument, hloaded, and_comm]
  | ok p =>
    obtain ⟨text, document⟩ := p
    simp only [ends_loadDocument, hloaded]
    simp

theorem exists_parse_of_loaded {name text : String} {members : Members}
    (h : r.loaded s name = .ok (text, members)) :
    ∃ bytes, r.documents s name = .ok (some bytes) ∧ parseDocument name text = .ok members := by
  unfold loaded at h
  split at h
  · simp at h
  · simp at h
  · case h_3 bytes hdocument =>
    split at h
    · simp at h
    · case h_2 decoded hdecode =>
      cases hparse : parseDocument name decoded with
      | error e => simp [hparse, Except.map] at h
      | ok found =>
        simp only [hparse, Except.map, Except.ok.injEq, Prod.mk.injEq] at h
        obtain ⟨rfl, rfl⟩ := h
        exact ⟨bytes, hdocument, hparse⟩

theorem exists_parse_of_document? {name : String} {members : Members}
    (h : r.document? s name = some members) :
    ∃ bytes text, r.documents s name = .ok (some bytes) ∧
      parseDocument name text = .ok members := by
  obtain ⟨text, h⟩ := document?_eq_some.mp h
  obtain ⟨bytes, hbytes, hparse⟩ := exists_parse_of_loaded h
  exact ⟨bytes, text, hbytes, hparse⟩

theorem document?_eq_some_of_bytes {name : String} {bytes : ByteArray} {members : Members}
    (h : r.documents s name = .ok (some bytes)) :
    r.document? s name = some members ↔
      ∃ text, Utf8.decode bytes = .ok text ∧ Value.read text = .ok (.object members) := by
  rw [document?_eq_some]
  cases hdecode : Utf8.decode bytes with
  | error fault => simp [loaded, h, hdecode]
  | ok text =>
    have hread := @parseDocument_eq_ok name text members
    cases hparse : parseDocument name text with
    | error e =>
      rw [hparse] at hread
      simp [loaded, h, hdecode, hparse, Except.map, ← hread]
    | ok found =>
      rw [hparse, Except.ok.injEq] at hread
      simp [loaded, h, hdecode, hparse, Except.map, ← hread]

/-- The same bytes are the same document, whatever their name. -/
theorem document?_of_bytes {τ : Type} {r' : Registry τ} {s' : τ} {name other : String}
    {bytes : ByteArray} (h : r.documents s name = .ok (some bytes))
    (h' : r'.documents s' other = .ok (some bytes)) :
    r'.document? s' other = r.document? s name := by
  apply Option.ext
  intro members
  rw [document?_eq_some_of_bytes h, document?_eq_some_of_bytes h']

theorem unique_of_document? {name : String} {members : Members}
    (h : r.document? s name = some members) : Value.Unique (.object members) := by
  obtain ⟨-, text, -, hparse⟩ := exists_parse_of_document? h
  exact unique_of_parseDocument hparse

theorem nesting_le_of_document? {name : String} {members : Members}
    (h : r.document? s name = some members) : Value.nesting (.object members) ≤ depthLimit := by
  obtain ⟨-, text, -, hparse⟩ := exists_parse_of_document? h
  exact nesting_le_of_parseDocument hparse

/-! ## References between names -/

variable (r s)

/-- The name that a reference in a directory stands for. -/
def target (directory reference : String) : String :=
  Name.normalize (r.resolve reference directory)

/-- The stored document of a name refers to another name. -/
def Refers (name other : String) : Prop :=
  ∃ document, r.document? s name = some document ∧ ∃ reference, Node.Mentions document reference ∧
    other = r.target (Name.directory name) reference

/-- One or more references lead from a name to another. -/
abbrev Reaches : String → String → Prop :=
  Relation.TransGen (r.Refers s)

variable {r s}

theorem normalize_target {directory reference : String} :
    Name.normalize (r.target directory reference) = r.target directory reference :=
  Name.normalize_normalize _

/-- The two registries see the same documents and resolve references alike. -/
structure SameSource {τ : Type} (r : Registry σ) (s : σ) (r' : Registry τ) (s' : τ) : Prop where
  documents : r'.documents s' = r.documents s
  resolve : r'.resolve = r.resolve

namespace SameSource

variable {τ : Type} {r' : Registry τ} {s' : τ}

theorem loaded (h : SameSource r s r' s') : r'.loaded s' = r.loaded s := by
  funext name
  unfold Registry.loaded
  rw [h.documents]

theorem document? (h : SameSource r s r' s') : r'.document? s' = r.document? s := by
  funext name
  unfold Registry.document?
  rw [h.loaded]

end SameSource

/-- The two registries resolve references alike, and see the same documents wherever references
lead from the name. -/
structure AgreeFrom {τ : Type} (r : Registry σ) (s : σ) (r' : Registry τ) (s' : τ)
    (name : String) : Prop where
  resolve : r'.resolve = r.resolve
  documents : ∀ other, Relation.ReflTransGen (r.Refers s) name other →
    r'.documents s' other = r.documents s other

theorem SameSource.agreeFrom {τ : Type} {r' : Registry τ} {s' : τ} (h : SameSource r s r' s')
    (name : String) : AgreeFrom r s r' s' name :=
  ⟨h.resolve, fun other _ => congrFun h.documents other⟩

namespace AgreeFrom

variable {τ : Type} {r' : Registry τ} {s' : τ} {name other : String}

theorem loaded (h : AgreeFrom r s r' s' name) : r'.loaded s' name = r.loaded s name := by
  unfold Registry.loaded
  rw [h.documents name .refl]

theorem document? (h : AgreeFrom r s r' s' name) : r'.document? s' name = r.document? s name := by
  unfold Registry.document?
  rw [h.loaded]

theorem target (h : AgreeFrom r s r' s' name) : r'.target = r.target := by
  funext directory reference
  unfold Registry.target
  rw [h.resolve]

theorem refers_iff (h : AgreeFrom r s r' s' name) :
    r'.Refers s' name other ↔ r.Refers s name other := by
  unfold Refers
  rw [h.document?, h.target]

/-- Where a reference leads, the registries still agree. -/
theorem step (h : AgreeFrom r s r' s' name) (hrefers : r.Refers s name other) :
    AgreeFrom r s r' s' other :=
  ⟨h.resolve, fun last hlast => h.documents last (hlast.head hrefers)⟩

/-- What the one registry sees from the name, the other sees too. -/
theorem reaches_iff (h : AgreeFrom r s r' s' name) :
    Relation.ReflTransGen (r'.Refers s') name other ↔
      Relation.ReflTransGen (r.Refers s) name other := by
  constructor
  · intro hreach
    induction hreach using Relation.ReflTransGen.head_induction_on with
    | refl => exact .refl
    | head hrefers _ ih =>
      have hrefers' := h.refers_iff.mp hrefers
      exact (ih (h.step hrefers')).head hrefers'
  · intro hreach
    induction hreach using Relation.ReflTransGen.head_induction_on with
    | refl => exact .refl
    | head hrefers _ ih => exact (ih (h.step hrefers)).head (h.refers_iff.mpr hrefers)

theorem symm (h : AgreeFrom r s r' s' name) : AgreeFrom r' s' r s name := by
  constructor
  · exact h.resolve.symm
  · intro other hreach
    exact (h.documents other (h.reaches_iff.mp hreach)).symm

end AgreeFrom

theorem Refers.normal {name other : String} (h : r.Refers s name other) :
    Name.normalize other = other := by
  obtain ⟨document, -, reference, -, rfl⟩ := h
  exact normalize_target

theorem normal_of_reaches {name other : String} (h : r.Reaches s name other) :
    Name.normalize other = other := by
  cases h with
  | single hrefers => exact hrefers.normal
  | tail _ hrefers => exact hrefers.normal

end Registry
end Schemata
