import Schemata.Grammar
import Schemata.Validation.Violation

/-!
# Declarations as they are written

A declaration is written as the name of its type, or as the list of the names of its members.
`TypeDecl.ofValue_eq_ok` says that exactly the values that are so written, with at least one
member, are recognised; `TypeDecl.ofValue_eq_error` says of every other value what is reported.
-/

namespace Schemata

open Json (Value)
open Validation (plainText)

namespace SchemaType

theorem ofName?_name (t : SchemaType) : ofName? t.name = some t := by
  cases t <;> decide

theorem ofName?_eq_some {text : String} {t : SchemaType} :
    ofName? text = some t ↔ text = t.name := by
  constructor
  · intro h
    unfold ofName? at h
    have hname := List.find?_some h
    exact (beq_iff_eq.mp hname).symm
  · rintro rfl
    exact ofName?_name t

theorem allows_type (t : SchemaType) : t.allows "type" = true := by
  cases t <;> decide

end SchemaType

namespace TypeDecl

variable {v : Value} {t : SchemaType} {decl : TypeDecl} {text : String}

/-- How a declaration is written. -/
def toValue : TypeDecl → Value
  | single t => .string t.name
  | union ts => .array (ts.map fun t => .string t.name)

theorem toValue_ne_null : decl.toValue ≠ .null := by
  cases decl <;> simp [toValue]

theorem allows_type (h : decl.members ≠ []) : decl.allows "type" = true := by
  obtain ⟨t, ht⟩ := List.exists_mem_of_ne_nil _ h
  exact List.any_eq_true.mpr ⟨t, ht, t.allows_type⟩

theorem ofName_eq_ok : ofName v = .ok t ↔ v = .string t.name := by
  cases v with
  | string s =>
    rw [Value.string.injEq, ← SchemaType.ofName?_eq_some]
    simp only [ofName]
    cases SchemaType.ofName? s <;> simp
  | _ => simp [ofName]

theorem ofNames_eq_ok {vs : List Value} {ts : List SchemaType} :
    ofNames vs = .ok ts ↔ vs = ts.map fun t => .string t.name := by
  induction vs generalizing ts with
  | nil => cases ts <;> simp [ofNames]
  | cons v rest ih =>
    cases ts with
    | nil =>
      simp only [ofNames, List.map_nil, reduceCtorEq, iff_false]
      cases ofName v <;> cases ofNames rest <;> simp [Except.map]
    | cons t ts =>
      rw [List.map_cons, List.cons.injEq, ← ofName_eq_ok, ← ih]
      simp only [ofNames]
      cases ofName v <;> cases ofNames rest <;> simp [Except.map]

/-- Exactly what is written with at least one member is a declaration. -/
theorem ofValue_eq_ok : ofValue v = .ok decl ↔ decl.members ≠ [] ∧ v = decl.toValue := by
  have hname : ∀ v, (ofName v).map single = .ok decl ↔
      ∃ t, decl = single t ∧ v = .string t.name := by
    intro v
    simp only [← ofName_eq_ok]
    cases ofName v <;> simp [Except.map, eq_comm]
  have hnames : ∀ vs, (ofNames vs).map union = .ok decl ↔
      ∃ ts, decl = union ts ∧ vs = ts.map fun t => .string t.name := by
    intro vs
    simp only [← ofNames_eq_ok]
    cases ofNames vs <;> simp [Except.map, eq_comm]
  cases v with
  | array items =>
    cases items with
    | nil => cases decl <;> simp [ofValue, toValue, members]
    | cons first rest =>
      rw [show ofValue (.array (first :: rest)) = (ofNames (first :: rest)).map union from rfl,
        hnames]
      cases decl with
      | single t => simp [toValue]
      | union ts => cases ts <;> simp [toValue, members]
  | _ =>
    rw [ofValue, hname] <;> cases decl <;> simp [toValue, members]

/-! ## What is reported of other values -/

/-- What is at fault in a value that is no declaration: the first member of a list that names no
type, or the value as a whole if it is no list or a list without members. -/
inductive FirstOffender : Value → Value → Prop
  | alone {v : Value} : (∀ items, v ≠ .array items) → (∀ t : SchemaType, v ≠ .string t.name) →
      FirstOffender v v
  | empty : FirstOffender (.array []) (.array [])
  | member (types : List SchemaType) {culprit : Value} {rest : List Value} :
      (∀ t : SchemaType, culprit ≠ .string t.name) →
      FirstOffender (.array (types.map (fun t => .string t.name) ++ culprit :: rest)) culprit

theorem ofName_eq_error :
    ofName v = .error text ↔ (∀ t : SchemaType, v ≠ .string t.name) ∧ text = plainText v := by
  cases v with
  | string s =>
    rw [ofName]
    cases hname : SchemaType.ofName? s with
    | none =>
      have hnone : ∀ t : SchemaType, s ≠ t.name := by
        rintro t rfl
        simp [SchemaType.ofName?_name] at hname
      simp [hnone, plainText, eq_comm]
    | some t =>
      obtain rfl := SchemaType.ofName?_eq_some.mp hname
      simp only [reduceCtorEq, false_iff, not_and]
      exact fun hnot => absurd rfl (hnot t)
  | _ => simp [ofName, plainText, eq_comm]

theorem ofNames_eq_error {vs : List Value} :
    ofNames vs = .error text ↔ ∃ (types : List SchemaType) (culprit : Value) (rest : List Value),
      vs = types.map (fun t => .string t.name) ++ culprit :: rest ∧
        (∀ t : SchemaType, culprit ≠ .string t.name) ∧ text = plainText culprit := by
  induction vs with
  | nil => simp [ofNames]
  | cons v vs ih =>
    rw [ofNames]
    cases hv : ofName v with
    | error told =>
      obtain ⟨hnot, rfl⟩ := ofName_eq_error.mp hv
      constructor
      · intro h
        exact ⟨[], v, vs, rfl, hnot, (Except.error.inj h).symm⟩
      · rintro ⟨types, culprit, rest, hvs, -, rfl⟩
        cases types with
        | nil => rw [(List.cons.inj hvs).1]
        | cons t types => exact absurd (List.cons.inj hvs).1 (hnot t)
    | ok t =>
      obtain rfl := ofName_eq_ok.mp hv
      have hrest : (ofNames vs).map (t :: ·) = .error text ↔ ofNames vs = .error text := by
        cases ofNames vs <;> simp [Except.map]
      rw [hrest, ih]
      constructor
      · rintro ⟨types, culprit, rest, rfl, hculprit⟩
        exact ⟨t :: types, culprit, rest, rfl, hculprit⟩
      · rintro ⟨types, culprit, rest, hvs, hculprit⟩
        cases types with
        | nil => exact absurd (List.cons.inj hvs).1.symm (hculprit.1 t)
        | cons other types => exact ⟨types, culprit, rest, (List.cons.inj hvs).2, hculprit⟩

theorem ofValue_of_ne_array (hv : ∀ items, v ≠ .array items) :
    ofValue v = (ofName v).map single := by
  cases v with
  | array items => exact absurd rfl (hv items)
  | _ => rfl

theorem ofValue_eq_error_of_ne_array (hv : ∀ items, v ≠ .array items) :
    ofValue v = .error text ↔ ∃ culprit, FirstOffender v culprit ∧ text = plainText culprit := by
  have herror : (ofName v).map single = .error text ↔ ofName v = .error text := by
    cases ofName v <;> simp [Except.map]
  rw [ofValue_of_ne_array hv, herror, ofName_eq_error]
  constructor
  · rintro ⟨hnot, rfl⟩
    exact ⟨v, .alone hv hnot, rfl⟩
  · rintro ⟨culprit, ⟨-, hnot⟩ | _ | _, rfl⟩
    · exact ⟨hnot, rfl⟩
    · exact absurd rfl (hv _)
    · exact absurd rfl (hv _)

theorem ofValue_array_eq_error {items : List Value} :
    ofValue (.array items) = .error text ↔
      ∃ culprit, FirstOffender (.array items) culprit ∧ text = plainText culprit := by
  generalize hvs : Value.array items = v
  cases items with
  | nil =>
    constructor
    · intro h
      subst hvs
      exact ⟨_, .empty, (Except.error.inj h).symm⟩
    · rintro ⟨culprit, hculprit, rfl⟩
      cases hculprit with
      | alone hv _ => exact absurd hvs.symm (hv [])
      | empty => rfl
      | member => simp at hvs
  | cons first rest =>
    have herror : ofValue v = .error text ↔ ofNames (first :: rest) = .error text := by
      rw [← hvs, show ofValue (.array (first :: rest)) = (ofNames (first :: rest)).map union from rfl]
      cases ofNames (first :: rest) <;> simp [Except.map]
    rw [herror, ofNames_eq_error]
    constructor
    · rintro ⟨types, culprit, back, hitems, hculprit, rfl⟩
      exact ⟨culprit, hvs ▸ hitems ▸ .member types hculprit, rfl⟩
    · rintro ⟨culprit, hculprit, rfl⟩
      cases hculprit with
      | alone hv _ => exact absurd hvs.symm (hv _)
      | empty => simp at hvs
      | member types hnot => exact ⟨types, _, _, Value.array.inj hvs, hnot, rfl⟩

/-- A value that is no declaration is reported by the first thing that is at fault in it. -/
theorem ofValue_eq_error :
    ofValue v = .error text ↔ ∃ culprit, FirstOffender v culprit ∧ text = plainText culprit := by
  cases v with
  | array items => exact ofValue_array_eq_error
  | _ => exact ofValue_eq_error_of_ne_array (by simp)

end TypeDecl
end Schemata
