import MiniScheme.Text.Grapheme.Class
import MiniScheme.Text.Grapheme.Conjunct
import MiniScheme.Text.Pictograph

/-!
# Clusters

A text is a row of extended grapheme clusters, as Unicode's rules for text
segmentation delimit them. Most boundaries depend on the two characters around
them. The others depend on what stands before: a conjunct goes on after a linking
sign, a symbol of several pictographs after a joiner, and the letters of flags go
in pairs.

* `ClusterContext` — what stands before a place, so far as a boundary depends on it;
* `clusters` — the clusters of a text.
-/

namespace MiniScheme

/-- How far a chain has come, in which a linking sign holds one member to the
next. -/
inductive Chain where
  | absent
  | begun
  | linked
  deriving DecidableEq

namespace Chain

/-- A chain of pictographs after one more character. Marks may follow a
pictograph, and the joiner after it is the link. -/
def nextPictograph (chain : Chain) (c : Char) : Chain :=
  if isPictograph c then begun
  else
    match chain, GraphemeClass.of c with
    | begun, .extend => begun
    | begun, .joiner => linked
    | _, _ => absent

/-- A conjunct after one more character. Marks may stand around the linking sign,
except the non-joiner. -/
def nextConsonant (chain : Chain) (c : Char) : Chain :=
  if isConjunctConsonant c then begun
  else if isConjunctLinker c then
    match chain with
    | absent => absent
    | _ => linked
  else if c = '\u200c' then absent
  else
    match GraphemeClass.of c with
    | .extend | .joiner => chain
    | _ => absent

end Chain

/-- What stands before a place in a text. -/
structure ClusterContext where
  /-- The class of the last character. -/
  last : GraphemeClass
  pictographs : Chain
  conjunct : Chain
  /-- Is the last character the first letter of a flag? -/
  isHalfFlag : Bool

namespace ClusterContext

/-- What stands before the start of a text. -/
def start : ClusterContext := ⟨.control, .absent, .absent, false⟩

/-- What stands after one more character. -/
def push (before : ClusterContext) (c : Char) : ClusterContext where
  last := .of c
  pictographs := before.pictographs.nextPictograph c
  conjunct := before.conjunct.nextConsonant c
  isHalfFlag := GraphemeClass.of c = .flagLetter && !before.isHalfFlag

/-- Does a character belong to the cluster before it? -/
def joins (before : ClusterContext) (c : Char) : Bool :=
  before.last.joins (.of c) ||
    before.pictographs = .linked && isPictograph c ||
    before.conjunct = .linked && isConjunctConsonant c ||
    before.isHalfFlag && GraphemeClass.of c = .flagLetter

end ClusterContext

/-- The clusters of a text that goes on from an open cluster, given in reverse. -/
def clustersOnto (cluster : List Char) (before : ClusterContext) : List Char → List (List Char)
  | [] => [cluster.reverse]
  | c :: rest =>
    if before.joins c then clustersOnto (c :: cluster) (before.push c) rest
    else cluster.reverse :: clustersOnto [c] (before.push c) rest

/-- The clusters of a text. -/
def clusters : List Char → List (List Char)
  | [] => []
  | c :: rest => clustersOnto [c] (ClusterContext.start.push c) rest

end MiniScheme
