/-
Sorting by runs.  A list is cut into stretches that already rise or fall, short ones are filled
up by insertion, and neighbouring runs are merged.  On numbers that all compare this is a
stable sort.  Samples that are no numbers compare with nothing, so the way of sorting shows in
where they end up, and it is fixed here step by step.
-/

namespace UsageReport.Runs

variable {α : Type} (less : α → α → Bool)

/-- The longest run at the front that never falls, after its first member. -/
def rising (x : α) : List α → List α × List α
  | [] => ([], [])
  | y :: rest =>
    if less y x then ([], y :: rest)
    else
      let (run, others) := rising y rest
      (y :: run, others)

/-- The longest run at the front that always falls, after its first member. -/
def falling (x : α) : List α → List α × List α
  | [] => ([], [])
  | y :: rest =>
    if less y x then
      let (run, others) := falling y rest
      (y :: run, others)
    else ([], y :: rest)

/-- The run at the front, turned round if it falls, and what follows it. -/
def front : List α → List α × List α
  | x :: y :: rest =>
    if less y x then
      let (run, others) := falling less x (y :: rest)
      ((x :: run).reverse, others)
    else
      let (run, others) := rising less x (y :: rest)
      (x :: run, others)
  | xs => (xs, [])

/-- Where a member goes in a run, after those that are equal: a bisection of the places from
`low` up to `high`. -/
def bisect (run : List α) (x : α) : Nat → Nat → Nat → Nat
  | 0, low, _ => low
  | fuel + 1, low, high =>
    if high ≤ low then low
    else
      let middle := low + (high - low) / 2
      match run[middle]? with
      | none => low
      | some y =>
        if less x y then bisect run x fuel low middle else bisect run x fuel (middle + 1) high

/-- Puts a member into a run. -/
def insert (run : List α) (x : α) : List α :=
  let place := bisect less run x (run.length + 1) 0 run.length
  run.take place ++ x :: run.drop place

/-- Doubles a step over members that pass, from the place `last` of one that does; the answer
brackets the place of the first that does not. -/
def stride (passes : α → Bool) (xs : List α) : Nat → Nat → Nat → Nat × Nat
  | 0, last, next => (last, next)
  | fuel + 1, last, next =>
    match xs[next]? with
    | some x => if passes x then stride passes xs fuel next (2 * next + 1) else (last, next)
    | none => (last, next)

/-- Narrows a bracket down by halves; of two middles the upper one is tried, or the lower. -/
def narrow (passes : α → Bool) (upper : Bool) (xs : List α) : Nat → Nat → Nat → Nat
  | 0, _, high => high
  | fuel + 1, low, high =>
    if high ≤ low then high
    else
      let middle := low + (if upper then (high - low) / 2 else (high - low - 1) / 2)
      match xs[middle]? with
      | some x =>
        if passes x then narrow passes upper xs fuel (middle + 1) high
        else narrow passes upper xs fuel low middle
      | none => high

/-- How many members at the front pass, found by strides and halves.  This is their number if
none passes after one that does not. -/
def gallop (passes : α → Bool) (upper : Bool) (xs : List α) : Nat :=
  match xs with
  | [] => 0
  | x :: _ =>
    if passes x then
      let (last, next) := stride passes xs xs.length 0 1
      narrow passes upper xs xs.length (last + 1) (min next xs.length)
    else 0

/-- A merge under way: what is left of the first and of the second run, both with the member to
be taken next in front, and what was taken, the last one first. -/
structure Merge (α : Type) where
  first : List α
  second : List α
  taken : List α

namespace Merge

def takeFirst (n : Nat) (m : Merge α) : Merge α :=
  { m with first := m.first.drop n, taken := (m.first.take n).reverse ++ m.taken }

def takeSecond (n : Nat) (m : Merge α) : Merge α :=
  { m with second := m.second.drop n, taken := (m.second.take n).reverse ++ m.taken }

/-- Whether nothing is left to be decided.  A merge from the front keeps the first run aside,
one from the back the second; the last member of the run aside goes last. -/
def isSettled (forward : Bool) (m : Merge α) : Bool :=
  let (aside, other) := if forward then (m.first, m.second) else (m.second, m.first)
  aside.length ≤ 1 || other.isEmpty

/-- All members in the order of a settled merge. -/
def all (forward : Bool) (m : Merge α) : List α :=
  m.taken.reverse ++ if forward then m.second ++ m.first else m.first ++ m.second

end Merge

/-- How many members of one run in a row make a merge take them by strides. -/
def gallopLength : Nat := 7

/-- Takes members one by one, until the merge is settled or `limit` in a row came from one run;
`fromFirst` and `fromSecond` count those in a row so far. -/
def walk (secondGoes : α → α → Bool) (forward : Bool) (limit : Nat) :
    Nat → Nat → Nat → Merge α → Merge α
  | 0, _, _, m => m
  | fuel + 1, fromFirst, fromSecond, m =>
    match m.first, m.second with
    | x :: _, y :: _ =>
      if secondGoes y x then
        let m := m.takeSecond 1
        if m.isSettled forward || limit ≤ fromSecond + 1 then m
        else walk secondGoes forward limit fuel 0 (fromSecond + 1) m
      else
        let m := m.takeFirst 1
        if m.isSettled forward || limit ≤ fromFirst + 1 then m
        else walk secondGoes forward limit fuel (fromFirst + 1) 0 m
    | _, _ => m

/-- Takes by strides what goes before the next member of the second run, then that member.
The answer tells how many were taken by strides. -/
def leapFirst (secondGoes : α → α → Bool) (forward : Bool) (m : Merge α) : Nat × Merge α :=
  match m.second with
  | [] => (0, m)
  | y :: _ =>
    let n := gallop (fun x => !secondGoes y x) forward m.first
    let m := m.takeFirst n
    (n, if m.isSettled forward then m else m.takeSecond 1)

/-- Takes by strides what goes before the next member of the first run, then that member. -/
def leapSecond (secondGoes : α → α → Bool) (forward : Bool) (m : Merge α) : Nat × Merge α :=
  match m.first with
  | [] => (0, m)
  | x :: _ =>
    let n := gallop (fun y => secondGoes y x) forward m.second
    let m := m.takeSecond n
    (n, if m.isSettled forward then m else m.takeFirst 1)

/-- Takes members by strides for as long as that pays.  The limit falls with every further
round and rises at the end. -/
def leap (secondGoes : α → α → Bool) (forward : Bool) : Nat → Nat → Merge α → Nat × Merge α
  | 0, limit, m => (limit, m)
  | fuel + 1, limit, m =>
    let (fromFirst, m) := leapFirst secondGoes forward m
    if m.isSettled forward then (limit, m)
    else
      let (fromSecond, m) := leapSecond secondGoes forward m
      if m.isSettled forward then (limit, m)
      else if gallopLength ≤ fromFirst || gallopLength ≤ fromSecond then
        leap secondGoes forward fuel (if 1 < limit then limit - 1 else limit) m
      else (limit + 1, m)

/-- Merges until all is settled, one by one and by strides in turn. -/
def proceed (secondGoes : α → α → Bool) (forward : Bool) : Nat → Nat → Merge α → Nat × Merge α
  | 0, limit, m => (limit, m)
  | fuel + 1, limit, m =>
    if m.isSettled forward then (limit, m)
    else
      let size := m.first.length + m.second.length
      let m := walk secondGoes forward limit size 0 0 m
      if m.isSettled forward then (limit, m)
      else
        let (limit, m) := leap secondGoes forward size limit m
        proceed secondGoes forward fuel limit m

/-- Merges two runs that interlock: the shorter one is kept aside, and the merge begins with
a member of the other, at the front or at the back. -/
def interlock (limit : Nat) (first second : List α) : Nat × List α :=
  let size := first.length + second.length
  if first.length ≤ second.length then
    let (limit, m) := proceed less true size limit ((⟨first, second, []⟩ : Merge α).takeSecond 1)
    (limit, m.all true)
  else
    let start : Merge α := ⟨first.reverse, second.reverse, []⟩
    let (limit, m) := proceed (fun y x => !less y x) false size limit (start.takeFirst 1)
    (limit, (m.all false).reverse)

/-- Merges two neighbouring runs; what stands in place already is left out of it. -/
def merge (limit : Nat) (first second : List α) : Nat × List α :=
  match second with
  | [] => (limit, first)
  | y :: _ =>
    let before := gallop (fun x => !less y x) true first
    let moving := first.drop before
    match moving.getLast? with
    | none => (limit, first ++ second)
    | some x =>
      let kept := second.length - gallop (fun y => !less y x) false second.reverse
      if kept = 0 then (limit, first ++ second)
      else
        let (limit, merged) := interlock less limit moving (second.take kept)
        (limit, first.take before ++ merged ++ second.drop kept)

/-- A run that waits to be merged: where it starts, and the depth of the border behind it. -/
structure Waiting (α : Type) where
  start : Nat
  members : List α
  depth : Nat

/-- The runs that wait, the last one first, and the number of members in a row from which on
merges go by strides. -/
structure Pending (α : Type) where
  runs : List (Waiting α)
  limit : Nat

/-- The depth of the border between two runs in a list of `n` members: how many halvings of the
list it takes to part the middles of the runs, given as twice their places. -/
def borderDepth (n : Nat) : Nat → Nat → Nat → Nat
  | 0, _, _ => 0
  | fuel + 1, left, right =>
    if n ≤ left then borderDepth n fuel (2 * (left - n)) (2 * (right - n)) + 1
    else if n ≤ right then 1
    else borderDepth n fuel (2 * left) (2 * right) + 1

/-- Merges the last two runs. -/
def Pending.mergeTop (p : Pending α) : Pending α :=
  match p.runs with
  | top :: below :: rest =>
    let (limit, members) := merge less p.limit below.members top.members
    ⟨{ below with members } :: rest, limit⟩
  | _ => p

/-- Merges the last runs for as long as the border between them lies deeper than `depth`. -/
def Pending.mergeDeeper (depth : Nat) : Nat → Pending α → Pending α
  | 0, p => p
  | fuel + 1, p =>
    match p.runs with
    | _ :: below :: _ =>
      if depth < below.depth then Pending.mergeDeeper depth fuel (p.mergeTop less) else p
    | _ => p

/-- Makes room for a run of `size` members in a list of `n`. -/
def Pending.prepare (n size : Nat) (p : Pending α) : Pending α :=
  match p.runs with
  | [] => p
  | top :: _ =>
    let left := 2 * top.start + top.members.length
    let depth := borderDepth n (n + 1) left (left + top.members.length + size)
    let p := p.mergeDeeper less depth p.runs.length
    match p.runs with
    | [] => p
    | top :: rest => { p with runs := { top with depth } :: rest }

/-- Merges all runs: the last two, unless the one below them is shorter than the last. -/
def Pending.collapse : Nat → Pending α → Pending α
  | 0, p => p
  | fuel + 1, p =>
    match p.runs with
    | top :: middle :: below :: rest =>
      if below.members.length < top.members.length then
        let (limit, members) := merge less p.limit below.members middle.members
        Pending.collapse fuel ⟨top :: { below with members } :: rest, limit⟩
      else Pending.collapse fuel (p.mergeTop less)
    | _ :: _ :: _ => Pending.collapse fuel (p.mergeTop less)
    | _ => p

/-- The least length of a run: from 32 to 64, so that a list has as many of them as a power of
two or a little less. -/
def leastRun : Nat → Nat → Nat → Nat
  | 0, n, odd => n + odd
  | fuel + 1, n, odd => if n < 64 then n + odd else leastRun fuel (n / 2) (max odd (n % 2))

/-- Cuts the rest of a list of `n` members into runs; `start` counts the members before. -/
def cutRuns (n least : Nat) : Nat → Nat → List α → Pending α → Pending α
  | 0, _, _, p => p
  | _ + 1, _, [], p => p
  | fuel + 1, start, xs, p =>
    let (run, rest) := front less xs
    let missing := least - run.length
    let run := (rest.take missing).foldl (insert less) run
    let p := p.prepare less n run.length
    cutRuns n least fuel (start + run.length) (rest.drop missing)
      { p with runs := ⟨start, run, 0⟩ :: p.runs }

/-- The members of a list in ascending order. -/
def sort (xs : List α) : List α :=
  let n := xs.length
  let cut := cutRuns less n (leastRun n n 0) n 0 xs ⟨[], gallopLength⟩
  (cut.collapse less cut.runs.length).runs.flatMap (·.members)

end UsageReport.Runs
