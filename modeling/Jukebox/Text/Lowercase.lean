import Jukebox.Text.CaseTable

/-!
# Lower-casing

Every capital is replaced by its small letter. Two characters need more than the table of runs:
the dotted capital I becomes a small i with a combining dot, and a capital sigma becomes the
final form of the letter where it ends a word.
-/

namespace Jukebox
namespace Text

/-- Whether a code point lies in one of the intervals. -/
def inIntervals (intervals : List (Nat × Nat)) (n : Nat) : Bool :=
  intervals.any fun interval => interval.1 ≤ n && n ≤ interval.2

def isCaseIgnorable (c : Char) : Bool :=
  inIntervals caseIgnorableIntervals c.toNat

def isCased (c : Char) : Bool :=
  inIntervals casedIntervals c.toNat

def LowerRun.contains (run : LowerRun) (n : Nat) : Bool :=
  run.first ≤ n && n ≤ run.last && (n - run.first) % run.step == 0

/-- The small letter of a character, where it has exactly one; else the character itself. -/
def lowerChar (c : Char) : Char :=
  match lowerRuns.find? fun run => run.contains c.toNat with
  | some run => Char.ofNat (Int.toNat (c.toNat + run.shift))
  | none => c

/-- Whether the first character that is not passed over is a cased one. -/
def meetsCased (cs : List Char) : Bool :=
  match cs.dropWhile isCaseIgnorable with
  | c :: _ => isCased c
  | [] => false

/-- A sigma is final when a letter stands before it and none follows. -/
def sigma (before after : List Char) : Char :=
  if meetsCased before && !meetsCased after then 'ς' else 'σ'

/-- Lower-cases the rest of a text; `before` holds what precedes it, the nearest first. -/
def lowerAfter (before : List Char) : List Char → List Char
  | [] => []
  | c :: rest =>
    let small :=
      if c = 'Σ' then [sigma before rest]
      else if c = 'İ' then ['i', '\u0307']
      else [lowerChar c]
    small ++ lowerAfter (c :: before) rest

/-- A text in small letters. -/
def lower (cs : List Char) : List Char :=
  lowerAfter [] cs

end Text
end Jukebox
