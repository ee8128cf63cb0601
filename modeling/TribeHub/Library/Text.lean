import Mathlib.Data.List.Basic

/-! Texts as lists of characters, cut at a separator. -/
namespace Text

/-- The text before the first `stop`, and the text after it if there is one. -/
def cut (stop : Char) : List Char → List Char × Option (List Char)
  | [] => ([],none)
  | c :: rest =>
    if c = stop then ([],some rest) else ((c :: (cut stop rest).1),(cut stop rest).2)

/-- The text before the last `stop`, if there is one, and the text after it. -/
def cutLast (stop : Char) (text : List Char) : Option (List Char) × List Char :=
  ((cut stop text.reverse).2.map List.reverse,(cut stop text.reverse).1.reverse)

theorem cut_absent {stop : Char} {text : List Char} (absent : stop ∉ text) :
    cut stop text = (text,none) := by
  induction text with
  | nil => rfl
  | cons c rest ih =>
    simp only [List.mem_cons,not_or] at absent
    simp [cut,Ne.symm absent.1,ih absent.2]

theorem cut_append {stop : Char} {first : List Char} (absent : stop ∉ first) (second : List Char) :
    cut stop (first ++ stop :: second) = (first,some second) := by
  induction first with
  | nil => simp [cut]
  | cons c rest ih =>
    simp only [List.mem_cons,not_or] at absent
    simp [cut,Ne.symm absent.1,ih absent.2]

theorem cut_some {stop : Char} {text first second : List Char}
    (found : cut stop text = (first,some second)) :
    text = first ++ stop :: second ∧ stop ∉ first := by
  induction text generalizing first with
  | nil => simp [cut] at found
  | cons c rest ih =>
    by_cases same : c = stop
    · simp only [cut,same,if_true,Prod.mk.injEq,Option.some.injEq] at found
      obtain ⟨rfl,rfl⟩ := found
      simp [same]
    · simp only [cut,same,if_false,Prod.mk.injEq] at found
      obtain ⟨rfl,later⟩ := found
      obtain ⟨text_eq,absent⟩ := ih (Prod.ext rfl later)
      refine ⟨congrArg (List.cons c) text_eq,?_⟩
      simp only [List.mem_cons,not_or]
      exact ⟨Ne.symm same,absent⟩

theorem cutLast_absent {stop : Char} {text : List Char} (absent : stop ∉ text) :
    cutLast stop text = (none,text) := by
  simp [cutLast,cut_absent (by simpa using absent : stop ∉ text.reverse)]

theorem cutLast_append {stop : Char} {second : List Char} (first : List Char)
    (absent : stop ∉ second) : cutLast stop (first ++ stop :: second) = (some first,second) := by
  have turned : (first ++ stop :: second).reverse = second.reverse ++ stop :: first.reverse := by
    simp
  simp [cutLast,turned,cut_append (by simpa using absent : stop ∉ second.reverse)]

/-- A text as the part before the first separator and the segments that separators introduce. -/
def joined (sep : Char) (first : List Char) : List (List Char) → List Char
  | [] => first
  | segment :: others => first ++ sep :: joined sep segment others

theorem joined_append {sep : Char} (first : List Char) (others : List (List Char)) :
    joined sep first others = first ++ joined sep [] others := by
  cases others <;> simp [joined]

def segments (sep : Char) (text : List Char) : List (List Char) := (text.splitOn sep).tail

theorem exists_joined (sep : Char) (text : List Char) : ∃ first others,
    text = joined sep first others ∧ sep ∉ first ∧ ∀ segment ∈ others, sep ∉ segment := by
  induction text with
  | nil => exact ⟨[],[],rfl,by simp,by simp⟩
  | cons c rest ih =>
    obtain ⟨first,others,split,absent,apart⟩ := ih
    by_cases same : c = sep
    · exact ⟨[],first :: others,by simp [joined,split,same],by simp,by simpa [absent] using apart⟩
    · refine ⟨c :: first,others,?_,?_,apart⟩
      · cases others <;> simp [joined,split]
      · simp only [List.mem_cons,not_or]
        exact ⟨Ne.symm same,absent⟩

theorem splitOn_joined {sep : Char} {first : List Char} {others : List (List Char)}
    (absent : sep ∉ first) (apart : ∀ segment ∈ others, sep ∉ segment) :
    (joined sep first others).splitOn sep = first :: others := by
  induction others generalizing first with
  | nil => exact List.splitOn_eq_singleton absent
  | cons segment others ih =>
    have tail := ih (apart segment List.mem_cons_self)
      (fun other present => apart other (List.mem_cons_of_mem _ present))
    rw [joined,List.splitOn_append_cons_self_of_not_mem absent,tail]

theorem segments_joined {sep : Char} {first : List Char} {others : List (List Char)}
    (absent : sep ∉ first) (apart : ∀ segment ∈ others, sep ∉ segment) :
    segments sep (joined sep first others) = others := by
  rw [segments,splitOn_joined absent apart,List.tail_cons]

/-- A prefix with a separator fixes the first part of the text. -/
theorem prefix_append_cons {sep : Char} {head first : List Char} (absent : sep ∉ head)
    (plain : sep ∉ first) (rest tail : List Char) :
    (head ++ sep :: rest) <+: (first ++ sep :: tail) ↔ head = first ∧ rest <+: tail := by
  induction head generalizing first with
  | nil =>
    cases first with
    | nil => simp
    | cons c others =>
      simp only [List.mem_cons,not_or] at plain
      simp [plain.1]
  | cons c head ih =>
    simp only [List.mem_cons,not_or] at absent
    cases first with
    | nil => simp [Ne.symm absent.1]
    | cons other others =>
      simp only [List.mem_cons,not_or] at plain
      simp [ih absent.2 plain.2,and_assoc]

theorem not_prefix_append_cons {sep : Char} {first : List Char} (plain : sep ∉ first)
    (head rest : List Char) : ¬(head ++ sep :: rest) <+: first := by
  intro before
  exact plain (before.subset (List.mem_append_right head List.mem_cons_self))

theorem prefix_of_plain {sep : Char} {head : List Char} (absent : sep ∉ head) (first : List Char)
    (others : List (List Char)) : head <+: joined sep first others ↔ head <+: first := by
  cases others with
  | nil => rfl
  | cons segment others =>
    refine ⟨fun before => ?_,fun before => before.trans (List.prefix_append first _)⟩
    rcases List.prefix_or_prefix_of_prefix before (List.prefix_append first _) with short | long
    · exact short
    · obtain ⟨more,rfl⟩ := long
      cases more with
      | nil => simp
      | cons c more =>
        have next : c :: more <+: sep :: joined sep segment others :=
          (List.prefix_append_right_inj first).mp before
        have same : c = sep := (List.cons_prefix_cons.mp next).1
        exact absurd (by simp [same]) absent

/-- `f` can neither make nor break this segment, as a whole or as the beginning of one. -/
def Neutral (sep : Char) (f : List Char → List Char) (head : List Char) : Prop :=
  ∀ segment, sep ∉ segment → (f segment = head ↔ segment = head) ∧ (head <+: f segment ↔ head <+: segment)

theorem joined_prefix_map {sep : Char} {f : List Char → List Char} {head first after : List Char}
    {heads others : List (List Char)} (neutral : ∀ h ∈ heads, Neutral sep f h) (absent : ∀ h ∈ head :: heads, sep ∉ h)
    (apart : ∀ segment ∈ others, sep ∉ segment) (kept : ∀ segment ∈ others, sep ∉ f segment)
    (plain : sep ∉ first) (changed : sep ∉ after) (same : after = head ↔ first = head)
    (starts : head <+: after ↔ head <+: first) :
    joined sep head heads <+: joined sep after (others.map f) ↔
      joined sep head heads <+: joined sep first others := by
  induction heads generalizing head first after others with
  | nil =>
    have none := absent head List.mem_cons_self
    rw [joined,prefix_of_plain none,prefix_of_plain none,starts]
  | cons next heads ih =>
    have none := absent head List.mem_cons_self
    cases others with
    | nil =>
      simp only [joined,List.map_nil]
      exact iff_of_false (not_prefix_append_cons changed head _) (not_prefix_append_cons plain head _)
    | cons segment others =>
      obtain ⟨whole,begins⟩ := neutral next List.mem_cons_self segment (apart segment List.mem_cons_self)
      have tail : joined sep next heads <+: joined sep (f segment) (others.map f) ↔
          joined sep next heads <+: joined sep segment others := ih
        (fun h present => neutral h (List.mem_cons_of_mem _ present))
        (fun h present => absent h (List.mem_cons_of_mem _ present))
        (fun s present => apart s (List.mem_cons_of_mem _ present))
        (fun s present => kept s (List.mem_cons_of_mem _ present))
        (apart segment List.mem_cons_self) (kept segment List.mem_cons_self) whole begins
      simp only [joined,List.map_cons]
      rw [prefix_append_cons none changed,prefix_append_cons none plain,tail,eq_comm,same,eq_comm]

end Text
