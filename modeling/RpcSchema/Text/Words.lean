import RpcSchema.Text.Case
import RpcSchema.Text.Cluster
import RpcSchema.Text.Numeral

set_option autoImplicit false

/-!
# Words of a name

A name such as `getHTTPResponse2` is read as words: a separator divides words and is dropped, and
so does the change from one kind of character to another. The words are then put together again in
another style.

## Main definitions

* `RpcSchema.Text.words` — the words of a name.
* `RpcSchema.Text.kebab` — `get-http-response-2`.
* `RpcSchema.Text.pascal` — `GetHttpResponse2`.
* `RpcSchema.Text.camel` — `getHttpResponse2`.
-/

namespace RpcSchema.Text

/-- What a cluster is for the division into words. -/
inductive ClusterKind
  | separator
  | digit
  | upper
  | lower
  | other
deriving DecidableEq

/-- **The kind of a cluster**: a cluster is in upper or lower case if it has two case forms and is
the one in question. -/
def clusterKind (cluster : List Char) : ClusterKind :=
  if cluster = ['_'] ∨ cluster = ['-'] ∨ cluster = [' '] then .separator
  else if cluster.all isDigit then .digit
  else
    let up := upper cluster
    let low := lower cluster
    if up = low then .other
    else if cluster = up then .upper
    else if cluster = low then .lower
    else .other

/-- Whether a word ends between two clusters that stand side by side: where the kind changes
between lower case, upper case and digits, but not from upper to lower case. -/
def changes : ClusterKind → ClusterKind → Bool
  | .lower, .upper => true
  | .upper, .digit => true
  | .digit, .upper => true
  | .digit, .lower => true
  | .lower, .digit => true
  | _, _ => false

/-- Whether a word ends after the first of the clusters: where the kind changes, and before the
last capital of several that leads into lower case. -/
def endsWord : List ClusterKind → Bool
  | .upper :: .upper :: .lower :: _ => true
  | first :: second :: _ => changes first second
  | _ => false

/-- The words of a name behind the word read so far, which is listed from its last cluster back. -/
def wordsFrom : List (List Char) → List (List Char × ClusterKind) → List (List Char)
  | current, [] => [current.reverse.flatten]
  | current, (cluster, kind) :: rest =>
    if kind = .separator then current.reverse.flatten :: wordsFrom [] rest
    else if endsWord (kind :: rest.map Prod.snd) then
      (cluster :: current).reverse.flatten :: wordsFrom [] rest
    else wordsFrom (cluster :: current) rest

/-- **The words of a name.** A separator at an end or next to another leaves an empty word. -/
def words (chars : List Char) : List (List Char) :=
  wordsFrom [] ((clusters chars).map fun cluster => (cluster, clusterKind cluster))

/-- A word with its first character in upper case and the rest in lower case. -/
def capitalize : List Char → List Char
  | [] => []
  | c :: rest => upperChar c ++ lower rest

/-- **Words in lower case joined by hyphens.** -/
def kebab (name : String) : String :=
  "-".intercalate ((words name.toList).map fun word => String.ofList (lower word))

/-- **Capitalized words without anything between them.** -/
def pascal (name : String) : String :=
  String.ofList ((words name.toList).flatMap capitalize)

/-- **Capitalized words after a first word in lower case.** -/
def camel (name : String) : String :=
  match words name.toList with
  | [] => ""
  | first :: rest => String.ofList (lower first ++ rest.flatMap capitalize)

end RpcSchema.Text
