import DirectoryLookup.Search.Session

/-!
# Several sessions at once

Sessions that run at the same time take their steps in some order. A schedule names, step by step,
the session whose turn it is. Sessions share nothing that changes, so a step of one leaves every
other as it was.
-/

namespace DirectoryLookup.Search

/-- Sessions under way at the same time. -/
abbrev Sessions := List Session

namespace Sessions

/-- The sessions after the one with number `i` has taken a step. -/
def stepAt (ss : Sessions) (i : Nat) : Sessions :=
  ss.modify i Session.step

/-- The sessions after the steps of a schedule. -/
def follow (ss : Sessions) (schedule : List Nat) : Sessions :=
  schedule.foldl stepAt ss

/-- A schedule of rounds in which every session has its turn, as many as the longest needs. -/
def inRounds (ss : Sessions) : List Nat :=
  (List.replicate (ss.foldl (fun n s => max n s.stepsLeft) 0) (List.range ss.length)).flatten

/-- All sessions brought to their ends, taking turns. -/
def run (ss : Sessions) : Sessions :=
  ss.follow ss.inRounds

/-- A step of one session leaves the others as they were. -/
theorem getElem?_stepAt_of_ne (ss : Sessions) {i j : Nat} (h : j ≠ i) :
    (ss.stepAt i)[j]? = ss[j]? := by
  simp [stepAt, Ne.symm h]

end Sessions

end DirectoryLookup.Search
