import RpcSchema.Path
import RpcSchema.Text.Split

set_option autoImplicit false

/-!
# The texts of paths

The text of a path along keys is cut into the keys again at its points, as long as no key has one.

## Main definitions

* `RpcSchema.Path.ofKeys` — the path along keys.
* `RpcSchema.Path.keysOf` — the keys that the text of a path spells.

## Main results

* `RpcSchema.Path.keysOf_text` — the keys of a path are read back from its text.
-/

namespace RpcSchema.Path

/-- The path along keys. -/
abbrev ofKeys (keys : List String) : Path := keys.map Step.key

/-- **The keys that a text spells**, between its points. The empty text is that of no key. -/
def keysOf (text : String) : List String := if text = "" then [] else Text.split '.' text

theorem text_ofKeys (keys : List String) : text (ofKeys keys) = ".".intercalate keys := by
  cases keys with
  | nil => rfl
  | cons key rest =>
    rw [ofKeys, List.map_cons, text, firstText]
    induction rest generalizing key with
    | nil => simp
    | cons next rest ih =>
      rw [String.intercalate_cons_cons, ← ih next, List.map_cons, List.map_cons, String.join_cons,
        stepText, String.append_assoc, String.append_assoc]

/-- **The keys of a path are read back** from its text, if no key has a point in it. -/
theorem keysOf_text {keys : List String} (hfirst : keys.head? ≠ some "")
    (h : ∀ key ∈ keys, '.' ∉ key.toList) : keysOf (text (ofKeys keys)) = keys := by
  rw [text_ofKeys]
  cases keys with
  | nil => rfl
  | cons key rest =>
    have hkey : key ≠ "" := fun heq => hfirst (congrArg some heq)
    have htext : ".".intercalate (key :: rest) ≠ "" := by
      cases rest with
      | nil => simpa using hkey
      | cons next rest => simp [String.intercalate_cons_cons, hkey]
    rw [keysOf, if_neg htext, Text.split_intercalate (by decide) (List.cons_ne_nil _ _) h]

end RpcSchema.Path
