import RpcSchema.Json.Basic

set_option autoImplicit false
set_option linter.unusedSectionVars false

/-!
# Induction along JSON values

One case for each kind of value, with the hypotheses for the items of an array and for the entries
of an object.

## Main results

* `RpcSchema.Json.induct` — induction on JSON values.
-/

namespace RpcSchema.Json

variable {motive : Json → Prop}
  (null : motive .null) (bool : ∀ value, motive (.bool value))
  (number : ∀ value, motive (.number value)) (string : ∀ value, motive (.string value))
  (array : ∀ items, (∀ item ∈ items, motive item) → motive (.array items))
  (object : ∀ entries, (∀ entry ∈ entries, motive entry.2) → motive (.object entries))

include null bool number string array object

mutual

/-- **Induction on JSON values.** -/
theorem induct : ∀ value, motive value
  | .null => null
  | .bool value => bool value
  | .number value => number value
  | .string value => string value
  | .array items => array items (inductItems items)
  | .object entries => object entries (inductEntries entries)

/-- The items of an array. -/
private theorem inductItems : ∀ (items : List Json), ∀ item ∈ items, motive item
  | [], _, h => absurd h List.not_mem_nil
  | first :: rest, item, h => by
    rcases List.mem_cons.mp h with heq | h
    · exact heq ▸ induct first
    · exact inductItems rest item h

/-- The entries of an object. -/
private theorem inductEntries :
    ∀ (entries : List (String × Json)), ∀ entry ∈ entries, motive entry.2
  | [], _, h => absurd h List.not_mem_nil
  | (_, value) :: rest, entry, h => by
    rcases List.mem_cons.mp h with rfl | h
    · exact induct value
    · exact inductEntries rest entry h

end

end RpcSchema.Json
