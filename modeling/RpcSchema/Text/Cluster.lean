import RpcSchema.Text.Cluster.Table

set_option autoImplicit false

/-!
# Clusters

A cluster is what a reader takes for one character: a letter with its marks, a sign with the letter
it stands before, pictographs tied together by joiners. The splitting of names into words looks at
clusters, where all that matters is whether a cluster is a cased letter, a digit or a separator;
the joins of characters that are none of these, such as the parts of a syllable block, are
therefore left out.

## Main definitions

* `RpcSchema.Text.joins` — whether a character belongs to the cluster before it.
* `RpcSchema.Text.clusters` — a text as its clusters.
-/

namespace RpcSchema.Text

/-- The zero-width joiner. -/
def joiner : Char := '\u200D'

/-- Whether a character modifies the skin colour of a pictograph. -/
def isModifier (c : Char) : Bool := 0x1F3FB ≤ c.toNat && c.toNat ≤ 0x1F3FF

/-- Whether a character is a mark that extends the cluster before it. -/
def isExtending (c : Char) : Bool := inRanges extendRanges c || isModifier c

/-- Whether characters, listed from the last one back, end in a pictograph with its marks and a
joiner. -/
def endsInJoinedPictograph : List Char → Bool
  | c :: before =>
    c == joiner &&
      match before.dropWhile isExtending with
      | [] => false
      | base :: _ => inRanges pictographRanges base
  | [] => false

/-- **Whether a character belongs to the cluster** whose characters are listed from the last one
back: marks and joiners do, whatever follows a prepended sign does, and so does a pictograph
behind a joined one. -/
def joins (cluster : List Char) (c : Char) : Bool :=
  match cluster with
  | [] => true
  | last :: _ =>
    isExtending c || c == joiner || inRanges spacingRanges c || inRanges prependRanges last ||
      (endsInJoinedPictograph cluster && inRanges pictographRanges c)

/-- The clusters of a text behind a cluster that is listed from its last character back. -/
def clustersFrom : List Char → List Char → List (List Char)
  | current, [] => if current.isEmpty then [] else [current.reverse]
  | current, c :: rest =>
    if joins current c then clustersFrom (c :: current) rest
    else current.reverse :: clustersFrom [c] rest

/-- **A text as its clusters.** -/
def clusters (chars : List Char) : List (List Char) := clustersFrom [] chars

end RpcSchema.Text
