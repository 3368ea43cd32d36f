import Schemata.Proofs.Building.Location
import Schemata.Proofs.Registry.Document

/-!
# Where a registry says the grammar is broken

An error of the grammar is told with a text.  For a tree without references the text can be read
back as a pointer, the pointer can be walked in the tree, and at its end stands what the error is
about.
-/

namespace Schemata
namespace Registry

open Build (Ends)
open Json (Members Value)
open Node (Mistyped KeyFault NoReferences Offends Route Step at?)

variable {σ : Type} (r : Registry σ) (s : σ) (levels : Nat) (directory : String) {d : Value}

theorem errs_buildTree (hu : d.Unique) (hclosed : NoReferences d) :
    Build.Errs (fun e => Offends d e ∨ e = .unparsable inlineName .notObject)
      (r.buildTree levels directory d) := by
  cases d with
  | object node =>
    have hroot : at? [] (.object node) = some (.object node) := rfl
    refine .bind (fun s e t h => Or.inl ?_) fun _ _ _ _ => .pure
    exact Building.errs_buildNode hu hclosed hroot s e t h
  | _ => exact .throw (Or.inr rfl)

/-- An error about a type or a key of a tree without references carries the location of a position
of the tree.  Its text is read back as a pointer that leads there.  For a type, to a node whose type
is no declaration, and the first offender is reported; for a key, to a node that holds it, where no
type of the node allows it or its value has the wrong shape, or to a value that is no object,
directly under the reported name or at an index of a list of items.  Different positions never have
the same text. -/
theorem grammar_errors_are_told_in_place (hu : d.Unique) (hclosed : NoReferences d) :
    (∀ typeName location t,
      Ends (r.buildTree levels directory d) s (.error (.invalidType typeName location)) t →
        ∃ route node, location = Node.location route ∧ at? route d = some (.object node) ∧
          Pointer.read? location.text = some location ∧
          d.walk? location = some (.object node) ∧ Mistyped node typeName) ∧
    (∀ property fault location t,
      Ends (r.buildTree levels directory d) s
          (.error (.invalidProperty property fault location)) t →
        ∃ route found, location = Node.location route ∧ at? route d = some found ∧
          Pointer.read? location.text = some location ∧ d.walk? location = some found ∧
          ((∃ node, found = .object node ∧ KeyFault node property fault) ∨
            (∀ child, found ≠ .object child) ∧
              ∃ (front : Pointer) (node : Members), d.walk? front = some (.object node) ∧
                ((fault = .childShape ∧ location = front.property property ∧
                    Step.into? node (.property property) = some found) ∨
                  fault = .itemShape ∧ property = "items" ∧
                    ∃ index, location = front.item index ∧
                      Step.into? node (.item index) = some found))) ∧
    (∀ w, Node.Position d w ↔ ∃ route, at? route d = some w) ∧
    ∀ p q : Route, (Node.location p).text = (Node.location q).text → p = q := by
  refine ⟨fun typeName location t h => ?_, fun property fault location t h => ?_,
    fun w => Node.position_iff_at? hu,
    fun p q h => Node.location_injective (Pointer.text_injective h)⟩
  · obtain ⟨hat, hmistyped⟩ | hobject := r.errs_buildTree levels directory hu hclosed _ _ _ h
    · exact ⟨_, _, rfl, hat, Pointer.read?_text _, Node.walk?_location hat, hmistyped⟩
    · simp at hobject
  · rcases r.errs_buildTree levels directory hu hclosed _ _ _ h with hoffends | hobject
    · cases hoffends with
      | key hat hfault =>
        exact ⟨_, _, rfl, hat, Pointer.read?_text _, Node.walk?_location hat,
          Or.inl ⟨_, rfl, hfault⟩⟩
      | @child route node name v hat hinto hv =>
        have hroute : at? (route ++ [.property property]) d = some v :=
          (Node.at?_concat hat).trans hinto
        rw [← Node.location_property]
        exact ⟨_, v, rfl, hroute, Pointer.read?_text _, Node.walk?_location hroute,
          Or.inr ⟨hv, Node.location route, node, Node.walk?_location hat,
            Or.inl ⟨rfl, Node.location_property, hinto⟩⟩⟩
      | @item route node index v hat hinto hv =>
        have hroute : at? (route ++ [.item index]) d = some v :=
          (Node.at?_concat hat).trans hinto
        rw [← Node.location_item]
        exact ⟨_, v, rfl, hroute, Pointer.read?_text _, Node.walk?_location hroute,
          Or.inr ⟨hv, Node.location route, node, Node.walk?_location hat,
            Or.inr ⟨rfl, rfl, index, Node.location_item, hinto⟩⟩⟩
    · simp at hobject

/-- A tree with a type that is no declaration, under a name that has to be escaped. -/
def mistyped : Value :=
  .object [("properties", .object
    [("a/~b", .object [("type", .array [.string "string", .string "text"])])])]

/-- A tree with an item that is no schema. -/
def gapped : Value :=
  .object [("type", .string "array"), ("items", .array [.object [], .bool true])]

theorem noReferences_mistyped : NoReferences mistyped := by
  apply Node.noReferences_of_properties rfl rfl rfl
  rw [List.forall_mem_singleton]
  exact Node.noReferences_leaf rfl rfl rfl

theorem noReferences_gapped : NoReferences gapped := by
  refine Node.noReferences_object_iff.mpr ⟨rfl, ?_⟩
  rintro part (⟨hprops, -⟩ | ⟨hitem, hpart⟩ | @⟨tuple, htuple, hmem⟩)
  · simp [Members.find?] at hprops
  · obtain rfl : .array [.object [], .bool true] = part := by
      simpa [Members.find?] using hitem
    exact absurd rfl (hpart _)
  · obtain rfl : [.object [], .bool true] = tuple := by
      simpa [Members.find?] using htuple
    rcases List.mem_cons.mp hmem with rfl | hrest
    · exact Node.noReferences_leaf rfl rfl rfl
    · obtain rfl := List.mem_singleton.mp hrest
      rintro node (_ | _)

theorem ends_mistyped :
    Ends ((ofTexts []).buildTree 4 "" mistyped) ()
      (.error (.invalidType "text" ["properties", "a/~b"])) () := by
  unfold Ends
  decide +kernel

theorem ends_gapped :
    Ends ((ofTexts []).buildTree 4 "" gapped) ()
      (.error (.invalidProperty "items" .itemShape ["items", "1"])) () := by
  unfold Ends
  decide +kernel

theorem escaped_name_is_told_in_place :
    mistyped.Unique ∧ NoReferences mistyped ∧ gapped.Unique ∧ NoReferences gapped ∧
      (∃ node, Pointer.read? "#/properties/a~1~0b" = some ["properties", "a/~b"] ∧
        mistyped.walk? ["properties", "a/~b"] = some (.object node) ∧ Mistyped node "text") ∧
      ∃ found, Pointer.read? "#/items/1" = some ["items", "1"] ∧
        gapped.walk? ["items", "1"] = some found ∧ ∀ child, found ≠ .object child := by
  have hmistyped : mistyped.Unique := by
    have hmerged : mistyped.mergeDuplicates = mistyped := by decide +kernel
    exact hmerged ▸ Value.unique_mergeDuplicates mistyped
  have hgapped : gapped.Unique := by
    have hmerged : gapped.mergeDuplicates = gapped := by decide +kernel
    exact hmerged ▸ Value.unique_mergeDuplicates gapped
  obtain ⟨htype, -⟩ := grammar_errors_are_told_in_place (ofTexts []) () 4 "" hmistyped
    noReferences_mistyped
  obtain ⟨-, hkey, -⟩ := grammar_errors_are_told_in_place (ofTexts []) () 4 "" hgapped
    noReferences_gapped
  obtain ⟨-, node, -, -, hread, hwalk, hnode⟩ := htype _ _ _ ends_mistyped
  obtain ⟨-, found, -, -, hread', hwalk', hfound⟩ := hkey _ _ _ _ ends_gapped
  refine ⟨hmistyped, noReferences_mistyped, hgapped, noReferences_gapped,
    ⟨node, hread, hwalk, hnode⟩, found, hread', hwalk', ?_⟩
  have hnokey : ∀ node key, ¬ KeyFault node key .itemShape := by
    rintro node key ⟨⟩
  rcases hfound with ⟨_, _, hfault⟩ | ⟨hshape, -⟩
  · exact absurd hfault (hnokey _ _)
  · exact hshape

end Registry
end Schemata
