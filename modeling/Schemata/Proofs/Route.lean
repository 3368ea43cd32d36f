import Schemata.Proofs.Json.Walk
import Schemata.Proofs.Pointer
import Schemata.Proofs.Position

/-!
# Routes to node positions

Every node position is reached from the root by a route: at each node to the schema of a property,
to the schema of all items, or to the schema of the item at an index.  The location of a position
is the pointer along its route.  It leads to the position, and since a step tells by its segments
where it ends, different routes have different locations.
-/

namespace Schemata
namespace Node

open Json (Members Value)

/-- A step from a node to a node position directly below it. -/
inductive Step where
  | property (name : String)
  | items
  | item (index : Nat)
  deriving DecidableEq, Repr

/-- The steps from a root to a node position. -/
abbrev Route := List Step

/-- What a step leads to. -/
def Step.into? (node : Members) : Step → Option Value
  | property name =>
    match Members.find? "properties" node with
    | some (.object children) => Members.find? name children
    | _ => none
  | items =>
    match Members.find? "items" node with
    | some (.array _) => none
    | found => found
  | item index =>
    match Members.find? "items" node with
    | some (.array tuple) => tuple[index]?
    | _ => none

/-- The segments that a step adds to a location. -/
def Step.segments : Step → Pointer
  | property name => ["properties", name]
  | items => ["items"]
  | item index => ["items", Nat.repr index]

/-- What stands at the end of a route. -/
def at? : Route → Value → Option Value
  | [], v => some v
  | step :: rest, .object node => (step.into? node).bind (at? rest)
  | _ :: _, _ => none

/-- The location of the position that a route leads to. -/
def location (route : Route) : Pointer :=
  route.flatMap Step.segments

variable {node : Members} {v w : Value} {route : Route} {step : Step} {name : String} {index : Nat}

/-! ## Steps -/

theorem into?_property : Step.into? node (.property name) = some w ↔
    ∃ children, Members.find? "properties" node = some (.object children) ∧
      Members.find? name children = some w := by
  rw [Step.into?]
  split
  · case h_1 children hprops => simp [hprops]
  · case h_2 hprops =>
    constructor
    · simp
    · rintro ⟨children, hchildren, -⟩
      exact absurd hchildren (hprops children)

theorem into?_items : Step.into? node .items = some w ↔
    Members.find? "items" node = some w ∧ ∀ tuple, w ≠ .array tuple := by
  rw [Step.into?]
  split
  · case h_1 tuple hitems =>
    rw [hitems, Option.some.injEq]
    constructor
    · simp
    · rintro ⟨rfl, hw⟩
      exact absurd rfl (hw tuple)
  · case h_2 hitems =>
    refine ⟨fun h => ⟨h, ?_⟩, And.left⟩
    rintro tuple rfl
    exact hitems tuple h

theorem into?_item : Step.into? node (.item index) = some w ↔
    ∃ tuple, Members.find? "items" node = some (.array tuple) ∧ tuple[index]? = some w := by
  rw [Step.into?]
  split
  · case h_1 tuple hitems => simp [hitems]
  · case h_2 hitems =>
    constructor
    · simp
    · rintro ⟨tuple, htuple, -⟩
      exact absurd htuple (hitems tuple)

/-- The parts of a node are what the steps from it lead to. -/
theorem part_iff_into? (hu : Value.Unique (.object node)) :
    Part node w ↔ ∃ step, Step.into? node step = some w := by
  constructor
  · rintro (⟨hprops, hmem⟩ | ⟨hitem, hw⟩ | ⟨htuple, hmem⟩)
    · exact ⟨.property _, into?_property.mpr
        ⟨_, hprops, Members.find?_of_mem (hu.find? hprops).keys hmem⟩⟩
    · exact ⟨.items, into?_items.mpr ⟨hitem, hw⟩⟩
    · obtain ⟨index, hindex⟩ := List.mem_iff_getElem?.mp hmem
      exact ⟨.item index, into?_item.mpr ⟨_, htuple, hindex⟩⟩
  · rintro ⟨step, hstep⟩
    cases step with
    | property name =>
      obtain ⟨children, hprops, hchild⟩ := into?_property.mp hstep
      exact .property hprops (Members.mem_of_find? hchild)
    | items =>
      obtain ⟨hitem, hw⟩ := into?_items.mp hstep
      exact .item hitem hw
    | item index =>
      obtain ⟨tuple, htuple, hitem⟩ := into?_item.mp hstep
      exact .tupleItem htuple (List.mem_of_getElem? hitem)

/-- A step is walked along its segments. -/
theorem walk?_segments (h : step.into? node = some w) :
    Value.walk? step.segments (.object node) = some w := by
  cases step with
  | property name =>
    obtain ⟨children, hprops, hchild⟩ := into?_property.mp h
    rw [Step.segments, Value.walk?_cons_of_step (v := .object node) hprops,
      Value.walk?_cons_of_step (v := .object children) hchild]
    rfl
  | items =>
    rw [Step.segments, Value.walk?_cons_of_step (v := .object node) (into?_items.mp h).1]
    rfl
  | item index =>
    obtain ⟨tuple, htuple, hitem⟩ := into?_item.mp h
    rw [Step.segments, Value.walk?_cons_of_step (v := .object node) htuple,
      Value.walk?_cons_of_step (Value.step?_item hitem)]
    rfl

/-! ## Routes -/

theorem at?_append (front back : Route) :
    at? (front ++ back) v = (at? front v).bind (at? back) := by
  induction front generalizing v with
  | nil => rfl
  | cons step rest ih =>
    cases v with
    | object node =>
      rw [List.cons_append, at?, at?, Option.bind_assoc]
      exact congrArg (Option.bind (step.into? node)) (funext fun _ => ih)
    | _ => rfl

theorem at?_concat (h : at? route v = some (.object node)) :
    at? (route ++ [step]) v = step.into? node := by
  rw [at?_append, h, Option.bind_some, at?]
  exact Option.bind_fun_some _

/-- The node positions of a value are the ends of the routes through it. -/
theorem position_iff_at? (hu : v.Unique) : Position v w ↔ ∃ route, at? route v = some w := by
  constructor
  · intro h
    induction h with
    | root => exact ⟨[], rfl⟩
    | inside hpart _ ih =>
      obtain ⟨step, hstep⟩ := (part_iff_into? hu).mp hpart
      obtain ⟨route, hroute⟩ := ih (hpart.unique hu)
      exact ⟨step :: route, by rw [at?, hstep, Option.bind_some, hroute]⟩
  · rintro ⟨route, hroute⟩
    induction route generalizing v with
    | nil =>
      cases hroute
      exact .root _
    | cons step rest ih =>
      cases v with
      | object node =>
        obtain ⟨part, hstep, hrest⟩ := Option.bind_eq_some_iff.mp hroute
        have hpart : Part node part := (part_iff_into? hu).mpr ⟨step, hstep⟩
        exact .inside hpart (ih (hpart.unique hu) hrest)
      | _ => cases hroute

/-! ## Locations -/

/-- A location leads to the position that it is the location of. -/
theorem walk?_location (h : at? route v = some w) : Value.walk? (location route) v = some w := by
  induction route generalizing v with
  | nil => exact h
  | cons step rest ih =>
    cases v with
    | object node =>
      obtain ⟨part, hstep, hrest⟩ := Option.bind_eq_some_iff.mp h
      rw [location, List.flatMap_cons, Value.walk?_append, walk?_segments hstep, Option.bind_some]
      exact ih hrest
    | _ => cases h

theorem location_concat : location (route ++ [step]) = location route ++ step.segments := by
  rw [location, List.flatMap_append, List.flatMap_singleton]
  rfl

theorem location_property :
    location (route ++ [.property name]) = (location route).property name :=
  location_concat

theorem location_item : location (route ++ [.item index]) = (location route).item index :=
  location_concat

theorem repr_ne_of_letter {text : String} {c : Char} (hc : c.isDigit = false)
    (hmem : c ∈ text.toList) : Nat.repr index ≠ text := by
  rintro rfl
  rw [Nat.toList_repr] at hmem
  rw [Nat.isDigit_of_mem_toDigits (by decide) (by decide) hmem] at hc
  simp at hc

/-- No route goes on with an index where one has just ended. -/
theorem location_ne_index {rest : Pointer} : location route ≠ Nat.repr index :: rest := by
  have hproperties : Nat.repr index ≠ "properties" := repr_ne_of_letter (c := 'p') rfl (by decide)
  have hitems : Nat.repr index ≠ "items" := repr_ne_of_letter (c := 'i') rfl (by decide)
  cases route with
  | nil => exact List.cons_ne_nil _ _ ∘ Eq.symm
  | cons step steps =>
    rw [location, List.flatMap_cons]
    cases step with
    | property name => exact fun h => hproperties (List.cons.inj h).1.symm
    | items => exact fun h => hitems (List.cons.inj h).1.symm
    | item other => exact fun h => hitems (List.cons.inj h).1.symm

theorem location_cons_ne_nil {rest : Route} : location (step :: rest) ≠ [] := by
  rw [location, List.flatMap_cons]
  cases step <;> exact List.cons_ne_nil _ _

/-- Different routes have different locations. -/
theorem location_injective : Function.Injective location := by
  intro p
  induction p with
  | nil =>
    rintro (_ | ⟨step, rest⟩) h
    · rfl
    · exact absurd h.symm location_cons_ne_nil
  | cons step p ih =>
    rintro (_ | ⟨other, q⟩) h
    · exact absurd h location_cons_ne_nil
    · have hsegments : step.segments ++ location p = other.segments ++ location q := h
      -- only `items` and an index start alike, and then the second segment tells them apart
      cases step <;> cases other <;>
        simp only [Step.segments, List.cons_append, List.nil_append, List.cons.injEq, true_and,
          (by decide : "properties" ≠ "items"), (by decide : "items" ≠ "properties"),
          false_and] at hsegments
      · obtain ⟨rfl, hrest⟩ := hsegments
        rw [ih hrest]
      · rw [ih hsegments]
      · exact absurd hsegments location_ne_index
      · exact absurd hsegments.symm location_ne_index
      · obtain ⟨hindex, hrest⟩ := hsegments
        rw [Value.eq_of_repr_eq hindex, ih hrest]

end Node
end Schemata
