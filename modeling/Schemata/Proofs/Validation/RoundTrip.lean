import Schemata.Pattern.Search
import Schemata.Proofs.Json.NumberTokens
import Schemata.Proofs.Validation.Validator

/-!
# The instance in a report

A report gives the instance as it was understood.  If all number tokens of the instance are whole
numbers of 64 bits, its text in the report stands for the same value with its keys in the same
order, and is reported on as the instance was.
-/

namespace Schemata.Validation

open Json (Members Value WholeTokens)

namespace Validator

variable {μ : Type}

/-- The report on a text is the report on its value, which it carries along. -/
theorem validate_of_read {v : Validator μ} {instanceText schemaText : String} {members : Members}
    {value : Value} (hschema : parseDocument inlineName schemaText = .ok members)
    (hread : Value.read instanceText = .ok value) :
    (v.validate instanceText schemaText).1 =
      .ok { (v.validateValue value (.object members)).1 with
        instanceText := some value.compact } := by
  rw [validate, hschema]
  dsimp only
  rw [hread]

/-- Every instance with whole number tokens is reported together with a text that is read as the
same value, and a validation of that text comes to the same report; whatever the validators were
used for before. -/
theorem reported_instance_validates_alike (engine : Engine μ) (allowAdditional : Bool)
    (earlier earlier' : List (Value × Value)) {instanceText schemaText : String}
    {members : Members} {value : Value}
    (hschema : parseDocument inlineName schemaText = .ok members)
    (hread : Value.read instanceText = .ok value) (htokens : WholeTokens instanceText.toList) :
    ∃ report text,
      (((fresh engine allowAdditional).afterAll earlier).validate instanceText schemaText).1 =
        .ok report ∧
      report.instanceText = some text ∧ Value.read text = .ok value ∧
      (((fresh engine allowAdditional).afterAll earlier').validate text schemaText).1 =
        .ok report := by
  have hreread : Value.read value.compact = .ok value := by
    rw [Value.read_compact (Value.unique_of_read hread) (Value.nesting_le_of_read hread),
      Value.reread_of_whole (Value.whole_of_read htokens hread)]
  have hpolicy : ((fresh engine allowAdditional).afterAll earlier').policy =
      ((fresh engine allowAdditional).afterAll earlier).policy := by
    rw [policy_afterAll_fresh, policy_afterAll_fresh]
  refine ⟨_, value.compact, validate_of_read hschema hread, rfl, hreread, ?_⟩
  rw [validate_of_read hschema hreread, validateValue_congr hpolicy]

/-- An instance with a duplicate key, escapes, and the extreme whole numbers. -/
def scrawledText : String :=
  "\x7b\"b\": 41, \"a\": \"\\u0001\\/1.5\", \"b\": [-9223372036854775808, 18446744073709551615]\x7d"

def scrawledValue : Value :=
  .object [("b", .array [.number (.whole (-9223372036854775808) (by decide)),
      .number (.whole 18446744073709551615 (by decide))]),
    ("a", .string "\x01/1.5")]

theorem scrawledText_validates_alike :
    parseDocument inlineName "\x7b\"type\":\"array\"\x7d" = .ok [("type", .string "array")] ∧
      Value.read scrawledText = .ok scrawledValue ∧ WholeTokens scrawledText.toList ∧
      ∃ report text,
        (((fresh Pattern.engine false).afterAll []).validate scrawledText
          "\x7b\"type\":\"array\"\x7d").1 = .ok report ∧
        report.instanceText = some text ∧ Value.read text = .ok scrawledValue ∧
        (((fresh Pattern.engine false).afterAll []).validate text
          "\x7b\"type\":\"array\"\x7d").1 = .ok report := by
  have hschema : parseDocument inlineName "\x7b\"type\":\"array\"\x7d" =
      .ok [("type", .string "array")] := by decide +kernel
  have hread : Value.read scrawledText = .ok scrawledValue := by decide +kernel
  have hscan : Json.numberTokens scrawledText.toList =
      ["41".toList, "-9223372036854775808".toList, "18446744073709551615".toList] := by
    decide +kernel
  have htokens : WholeTokens scrawledText.toList := by
    rw [WholeTokens, hscan]
    simp only [List.forall_mem_cons, List.not_mem_nil, false_imp_iff, implies_true, and_true]
    exact ⟨⟨41, by decide, by decide, by decide⟩,
      ⟨-9223372036854775808, by decide, by decide, by decide⟩,
      ⟨18446744073709551615, by decide, by decide, by decide⟩⟩
  exact ⟨hschema, hread, htokens,
    reported_instance_validates_alike Pattern.engine false [] [] hschema hread htokens⟩

end Validator
end Schemata.Validation
