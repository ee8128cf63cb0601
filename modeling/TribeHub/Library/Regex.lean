import Mathlib.Data.List.TakeWhile
import TribeHub.Library.Text

/-! Regular expressions with the backtracking order of ECMAScript, and the replacement of
all their matches. A pattern that begins with a separator and stays within the segment
after it replaces segment by segment. -/

inductive Regex where
  | empty
  | one (accepts : Char → Bool)
  | plus (accepts : Char → Bool)
  | seq (first second : Regex)
  | either (first second : Regex)
  | ahead (body : Regex)
  | stop

namespace Regex

def char (c : Char) : Regex := .one (fun other => other = c)

def times : Nat → Regex → Regex
  | 0,_ => .empty
  | count+1,body => .seq body (times count body)

def sequence : List Regex → Regex
  | [] => .empty
  | first :: others => .seq first (sequence others)

/-- What a greedy repetition leaves, the longest match first. -/
def plusRests (accepts : Char → Bool) : List Char → List (List Char)
  | [] => []
  | c :: rest => if accepts c then plusRests accepts rest ++ [rest] else []

/-- What each match at the head of the text leaves, in the order of backtracking. -/
def rests : Regex → List Char → List (List Char)
  | .empty,text => [text]
  | .one accepts,c :: rest => if accepts c then [rest] else []
  | .one _,[] => []
  | .plus accepts,text => plusRests accepts text
  | .seq first second,text => (first.rests text).flatMap second.rests
  | .either first second,text => first.rests text ++ second.rests text
  | .ahead body,text => if (body.rests text).isEmpty then [] else [text]
  | .stop,text => if text.isEmpty then [text] else []

def exec (pattern : Regex) (text : List Char) : Option (List Char) := (pattern.rests text).head?

/-- The replacement behind `skip` characters that belong to the last match. After an empty
match the next character is kept. -/
def replaceFrom (pattern : Regex) (replacement : List Char) : Nat → List Char → List Char
  | 0,[] => if (pattern.exec []).isSome then replacement else []
  | _+1,[] => []
  | skip+1,_ :: rest => replaceFrom pattern replacement skip rest
  | 0,c :: rest =>
    match pattern.exec (c :: rest) with
    | none => c :: replaceFrom pattern replacement 0 rest
    | some after =>
      if after.length ≤ rest.length then
        replacement ++ replaceFrom pattern replacement (rest.length - after.length) rest
      else replacement ++ c :: replaceFrom pattern replacement 0 rest

/-- `text.replace(pattern, replacement)` under the flag `g`. -/
def replaceAll (pattern : Regex) (replacement text : List Char) : List Char :=
  replaceFrom pattern replacement 0 text

def Determined (pattern : Regex) (leaves : List Char → Option (List Char)) : Prop :=
  ∀ text, pattern.rests text = (leaves text).toList

theorem Determined.exec {pattern : Regex} {leaves : List Char → Option (List Char)}
    (determined : Determined pattern leaves) (text : List Char) :
    pattern.exec text = leaves text := by
  unfold Regex.exec
  rw [determined text]
  cases leaves text <;> rfl

def leavesRun (count : Nat) (accepts : Char → Bool) (text : List Char) : Option (List Char) :=
  match count,text with
  | 0,text => some text
  | _+1,[] => none
  | count+1,c :: rest => if accepts c then leavesRun count accepts rest else none

theorem determined_seq {first second : Regex} {one two : List Char → Option (List Char)}
    (left : Determined first one) (right : Determined second two) :
    Determined (.seq first second) (fun text => (one text).bind two) := by
  intro text
  simp only [rests]
  rw [left text]
  cases one text with
  | none => rfl
  | some rest => simpa using right rest

theorem determined_times (count : Nat) (accepts : Char → Bool) :
    Determined (times count (.one accepts)) (leavesRun count accepts) := by
  intro text
  induction count generalizing text with
  | zero => rfl
  | succ count ih =>
    cases text with
    | nil => rfl
    | cons c rest =>
      simp only [times,rests,leavesRun]
      split
      · simpa using ih rest
      · rfl

theorem determined_one (accepts : Char → Bool) : Determined (.one accepts) (leavesRun 1 accepts) := by
  intro text
  cases text with
  | nil => rfl
  | cons c rest =>
    simp only [rests,leavesRun]
    split <;> rfl

theorem leavesRun_some {count : Nat} {accepts : Char → Bool} {text rest : List Char} :
    leavesRun count accepts text = some rest ↔
      ∃ run, text = run ++ rest ∧ run.length = count ∧ ∀ c ∈ run, accepts c = true := by
  induction count generalizing text with
  | zero =>
    simp only [leavesRun,Option.some.injEq]
    constructor
    · intro same
      exact ⟨[],same,rfl,by simp⟩
    · intro found
      obtain ⟨run,split,size,_⟩ := found
      simpa [List.length_eq_zero_iff.mp size] using split
  | succ count ih =>
    cases text with
    | nil =>
      simp only [leavesRun,reduceCtorEq,false_iff]
      intro found
      obtain ⟨run,split,size,_⟩ := found
      have none := (List.append_eq_nil_iff.mp split.symm).1
      simp [none] at size
    | cons c tail =>
      simp only [leavesRun]
      split
      · rename_i accepted
        rw [ih]
        constructor
        · intro found
          obtain ⟨run,split,size,all⟩ := found
          exact ⟨c :: run,by simp [split],by simp [size],by simpa [accepted] using all⟩
        · intro found
          obtain ⟨run,split,size,all⟩ := found
          cases run with
          | nil => simp at size
          | cons first run =>
            obtain ⟨rfl,tail_eq⟩ := List.cons.inj split
            exact ⟨run,tail_eq,by simpa using size,
              fun other present => all other (List.mem_cons_of_mem _ present)⟩
      · rename_i refused
        simp only [reduceCtorEq,false_iff]
        intro found
        obtain ⟨run,split,size,all⟩ := found
        cases run with
        | nil => simp at size
        | cons first run =>
          obtain ⟨rfl,_⟩ := List.cons.inj split
          exact refused (all c List.mem_cons_self)

section Segments

variable {sep : Char}

/-- The end of a segment: the end of the text, or the next separator. -/
def Ended (sep : Char) (tail : List Char) : Prop := tail = [] ∨ ∃ rest, tail = sep :: rest

/-- Within a text that continues behind the segment nothing else is left. -/
structure Local (sep : Char) (leaves : List Char → Option (List Char)) : Prop where
  within : ∀ segment tail, sep ∉ segment → Ended sep tail →
    leaves (segment ++ tail) = (leaves segment).map (· ++ tail)
  suffix : ∀ text rest, leaves text = some rest → ∃ front, text = front ++ rest

theorem Local.bind {one two : List Char → Option (List Char)} (first : Local sep one)
    (second : Local sep two) : Local sep (fun text => (one text).bind two) where
  within := by
    intro segment tail absent ended
    rw [first.within segment tail absent ended]
    cases found : one segment with
    | none => rfl
    | some rest =>
      obtain ⟨front,split⟩ := first.suffix segment rest found
      have inside : sep ∉ rest := fun present => absent (split ▸ List.mem_append_right front present)
      exact second.within rest tail inside ended
  suffix := by
    intro text rest found
    obtain ⟨middle,here,there⟩ := Option.bind_eq_some_iff.mp found
    obtain ⟨front,split⟩ := first.suffix text middle here
    obtain ⟨more,again⟩ := second.suffix middle rest there
    exact ⟨front ++ more,by rw [split,again,List.append_assoc]⟩

theorem local_leavesRun {accepts : Char → Bool} (count : Nat) (refused : accepts sep = false) :
    Local sep (leavesRun count accepts) where
  within := by
    intro segment tail absent ended
    induction count generalizing segment with
    | zero => rfl
    | succ count ih =>
      cases segment with
      | nil =>
        rcases ended with rfl | ⟨rest,rfl⟩
        · rfl
        · simp [leavesRun,refused]
      | cons c rest =>
        simp only [List.cons_append,leavesRun]
        split
        · exact ih rest (fun present => absent (List.mem_cons_of_mem c present))
        · rfl
  suffix text rest found := by
    obtain ⟨run,split,_⟩ := leavesRun_some.mp found
    exact ⟨run,split⟩

/-- What is left behind a run of accepted characters that ends its segment. -/
def leavesWhole (sep : Char) (accepts : Char → Bool) (text : List Char) : Option (List Char) :=
  let rest := text.dropWhile accepts
  if text.head?.any accepts && (rest.isEmpty || rest.head? = some sep) then some rest else none

def atEnd (sep : Char) : Regex := .ahead (.either (char sep) .stop)

theorem rests_atEnd (sep : Char) (text : List Char) :
    (atEnd sep).rests text = if text.isEmpty || text.head? = some sep then [text] else [] := by
  cases text with
  | nil => simp [atEnd,char,rests]
  | cons c rest => by_cases same : c = sep <;> simp [atEnd,char,rests,same]

theorem determined_whole {accepts : Char → Bool} (refused : accepts sep = false) :
    Determined (.seq (.plus accepts) (atEnd sep)) (leavesWhole sep accepts) := by
  intro text
  simp only [rests]
  induction text with
  | nil => simp [plusRests,leavesWhole]
  | cons c rest ih =>
    cases accepted : accepts c with
    | false => simp [plusRests,leavesWhole,accepted]
    | true =>
      simp only [plusRests,accepted,if_true,List.flatMap_append,ih,List.flatMap_singleton,rests_atEnd]
      -- a shorter run would stop before an accepted character, which ends no segment
      cases rest with
      | nil => simp [leavesWhole,accepted]
      | cons next others =>
        cases again : accepts next with
        | true =>
          have other : next ≠ sep := by
            intro same
            rw [same,refused] at again
            contradiction
          simp [leavesWhole,accepted,again,other]
        | false =>
          by_cases same : next = sep <;> simp [leavesWhole,same,accepted,again,refused]

theorem dropWhile_within {accepts : Char → Bool} (refused : accepts sep = false) {tail : List Char}
    (ended : Ended sep tail) (segment : List Char) :
    (segment ++ tail).dropWhile accepts = segment.dropWhile accepts ++ tail := by
  induction segment with
  | nil => rcases ended with rfl | ⟨rest,rfl⟩ <;> simp [refused]
  | cons c rest ih => cases accepted : accepts c <;> simp [accepted,ih]

theorem local_leavesWhole {accepts : Char → Bool} (refused : accepts sep = false) :
    Local sep (leavesWhole sep accepts) where
  within := by
    intro segment tail absent ended
    unfold leavesWhole
    rw [dropWhile_within refused ended]
    have inside : sep ∉ segment.dropWhile accepts :=
      fun present => absent ((List.dropWhile_sublist accepts).subset present)
    cases left : segment.dropWhile accepts with
    | cons c rest =>
      have other : c ≠ sep := by
        intro same
        exact inside (by simp [left,same])
      cases segment with
      | nil => simp at left
      | cons first others => simp [other]
    | nil =>
      rcases ended with rfl | ⟨rest,rfl⟩
      · simp
      · cases segment <;> simp [refused]
  suffix := by
    intro text rest found
    simp only [leavesWhole] at found
    split at found
    · refine ⟨text.takeWhile accepts,?_⟩
      rw [← Option.some.inj found,List.takeWhile_append_dropWhile]
    · contradiction

theorem leavesWhole_some {accepts : Char → Bool} {segment rest : List Char} (plain : sep ∉ segment) :
    leavesWhole sep accepts segment = some rest ↔
      (segment ≠ [] ∧ ∀ c ∈ segment, accepts c = true) ∧ rest = [] := by
  unfold leavesWhole
  cases left : segment.dropWhile accepts with
  | nil =>
    have all := List.dropWhile_eq_nil_iff.mp left
    cases segment with
    | nil => simp
    | cons first others =>
      have accepted := all first List.mem_cons_self
      constructor
      · intro found
        have empty : [] = rest := by simpa [accepted] using found
        exact ⟨⟨by simp,all⟩,empty.symm⟩
      · intro found
        simp [accepted,found.2]
  | cons c others =>
    have present : c ∈ segment.dropWhile accepts := by simp [left]
    have other : c ≠ sep := fun same => plain (same ▸ (List.dropWhile_sublist accepts).subset present)
    simp only [List.isEmpty_cons,List.head?_cons,Option.some.injEq,other,decide_false,Bool.or_self,
      Bool.and_false,Bool.false_eq_true,if_false,reduceCtorEq,false_iff,not_and]
    intro all
    have nothing := List.dropWhile_eq_nil_iff.mpr all.2
    simp [nothing] at left

variable {body : Regex} {leaves : List Char → Option (List Char)}

theorem exec_separator (determined : Determined body leaves) (text : List Char) :
    (Regex.seq (char sep) body).exec (sep :: text) = leaves text := by
  have whole := determined_seq (determined_one (fun other => other = sep)) determined
  rw [char,whole.exec]
  simp [leavesRun]

theorem exec_other (determined : Determined body leaves) {c : Char} (other : c ≠ sep)
    (text : List Char) : (Regex.seq (char sep) body).exec (c :: text) = none := by
  have whole := determined_seq (determined_one (fun other => other = sep)) determined
  rw [char,whole.exec]
  simp [leavesRun,other]

theorem replaceFrom_skip (pattern : Regex) (replacement front rest : List Char) :
    replaceFrom pattern replacement front.length (front ++ rest) =
      replaceFrom pattern replacement 0 rest := by
  induction front with
  | nil => rfl
  | cons c front ih => simpa [replaceFrom] using ih

theorem replaceAll_plain (determined : Determined body leaves) (replacement : List Char)
    {plain : List Char} (absent : sep ∉ plain) (rest : List Char) :
    replaceAll (.seq (char sep) body) replacement (plain ++ rest) =
      plain ++ replaceAll (.seq (char sep) body) replacement rest := by
  induction plain with
  | nil => rfl
  | cons c tail ih =>
    simp only [List.mem_cons,not_or] at absent
    have kept := ih absent.2
    unfold replaceAll at kept ⊢
    simp only [List.cons_append,replaceFrom,exec_other determined (Ne.symm absent.1),kept]

def replaceSegment (leaves : List Char → Option (List Char)) (replacement segment : List Char) :
    List Char :=
  match leaves segment with
  | some rest => replacement ++ rest
  | none => segment

theorem replaceAll_segment (determined : Determined body leaves) (inside : Local sep leaves)
    (replacement : List Char) {segment : List Char} (absent : sep ∉ segment) {tail : List Char}
    (ended : Ended sep tail) :
    replaceAll (.seq (char sep) body) (sep :: replacement) (sep :: (segment ++ tail)) =
      sep :: (replaceSegment leaves replacement segment ++
        replaceAll (.seq (char sep) body) (sep :: replacement) tail) := by
  have found : (Regex.seq (char sep) body).exec (sep :: (segment ++ tail)) = leaves (segment ++ tail) :=
    exec_separator determined (segment ++ tail)
  rw [inside.within segment tail absent ended] at found
  cases left : leaves segment with
  | none =>
    have kept := replaceAll_plain determined (sep :: replacement) absent tail
    rw [left] at found
    simp only [replaceSegment,left]
    unfold replaceAll at kept ⊢
    simp only [replaceFrom,found,Option.map_none,kept]
  | some rest =>
    -- the match is skipped, and the rest of the segment holds no separator to begin another
    obtain ⟨front,rfl⟩ := inside.suffix segment rest left
    have apart : sep ∉ rest := fun present => absent (List.mem_append_right front present)
    have kept := replaceAll_plain determined (sep :: replacement) apart tail
    have skipped := replaceFrom_skip (.seq (char sep) body) (sep :: replacement) front (rest ++ tail)
    have shorter : (rest ++ tail).length ≤ (front ++ rest ++ tail).length := by simp
    have count : (front ++ rest ++ tail).length - (rest ++ tail).length = front.length := by
      simp only [List.length_append]
      omega
    rw [left] at found
    simp only [replaceSegment,left]
    unfold replaceAll at kept ⊢
    simp only [replaceFrom,found,Option.map_some]
    rw [if_pos shorter,count,List.append_assoc front,skipped,kept]
    simp

open Text in
/-- The replacement works segment by segment, and leaves what stands before the first alone. -/
theorem replaceAll_joined (determined : Determined body leaves) (inside : Local sep leaves)
    (replacement : List Char) {first : List Char} {others : List (List Char)} (plain : sep ∉ first)
    (apart : ∀ segment ∈ others, sep ∉ segment) :
    replaceAll (.seq (char sep) body) (sep :: replacement) (joined sep first others) =
      joined sep first (others.map (replaceSegment leaves replacement)) := by
  induction others generalizing first with
  | nil =>
    have nothing : (Regex.seq (char sep) body).exec [] = none := rfl
    have whole := replaceAll_plain determined (sep :: replacement) plain []
    rw [List.append_nil] at whole
    simp only [joined,List.map_nil,whole]
    simp [replaceAll,replaceFrom,nothing]
  | cons segment others ih =>
    have absent := apart segment List.mem_cons_self
    have rest := ih List.not_mem_nil (fun s present => apart s (List.mem_cons_of_mem _ present))
    have ended : Ended sep (joined sep [] others) := by
      cases others with
      | nil => exact Or.inl rfl
      | cons next others => exact Or.inr ⟨joined sep next others,rfl⟩
    rw [joined,replaceAll_plain determined _ plain,joined_append segment,
      replaceAll_segment determined inside replacement absent ended,rest,← joined_append]
    rfl

end Segments

end Regex
