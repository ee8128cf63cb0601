import Mathlib.Data.List.Infix

/-! Glob patterns of Redis without character classes. A stem of plain characters before a
final star selects the texts that begin with the stem. -/
namespace Glob

inductive Token where
  | literal (c : Char)
  | one
  | many
  deriving DecidableEq

/-- `none` where the pattern has a character class. -/
def tokens : List Char → Option (List Token)
  | [] => some []
  | '*' :: rest => (tokens rest).map (fun others => .many :: others)
  | '?' :: rest => (tokens rest).map (fun others => .one :: others)
  | '\\' :: c :: rest => (tokens rest).map (fun others => .literal c :: others)
  | '[' :: _ => none
  | c :: rest => (tokens rest).map (fun others => .literal c :: others)

def accepts : List Token → List Char → Bool
  | [],text => text.isEmpty
  | .many :: rest,text => text.tails.any (fun tail => accepts rest tail)
  | .one :: rest,_ :: text => accepts rest text
  | .literal c :: rest,other :: text => c = other && accepts rest text
  | .one :: _,[] => false
  | .literal _ :: _,[] => false

/-- The key matches the pattern. -/
def selects (pattern key : String) : Bool :=
  match tokens pattern.toList with
  | some parsed => accepts parsed key.toList
  | none => false

def plain (c : Char) : Bool := c ≠ '*' && c ≠ '?' && c ≠ '\\' && c ≠ '['

theorem tokens_plain {c : Char} (ordinary : plain c = true) (rest : List Char) :
    tokens (c :: rest) = (tokens rest).map (fun others => .literal c :: others) := by
  simp only [plain,Bool.and_eq_true,decide_eq_true_eq] at ordinary
  obtain ⟨⟨⟨star,question⟩,backslash⟩,bracket⟩ := ordinary
  simp [tokens,backslash]

theorem tokens_stem {stem : List Char} (ordinary : ∀ c ∈ stem, plain c = true) :
    tokens (stem ++ ['*']) = some (stem.map .literal ++ [.many]) := by
  induction stem with
  | nil => rfl
  | cons c rest ih =>
    have tail := ih (fun other present => ordinary other (List.mem_cons_of_mem c present))
    rw [List.cons_append,tokens_plain (ordinary c List.mem_cons_self),tail]
    rfl

theorem accepts_stem (stem text : List Char) :
    accepts (stem.map .literal ++ [.many]) text = true ↔ stem <+: text := by
  induction stem generalizing text with
  | nil =>
    simp only [List.map_nil,List.nil_append,accepts,List.any_eq_true,List.nil_prefix,iff_true]
    exact ⟨[],(List.mem_tails _ _).mpr List.nil_suffix,rfl⟩
  | cons c rest ih =>
    cases text with
    | nil => simp [accepts]
    | cons other text => simp [accepts,ih,List.cons_prefix_cons]

theorem selects_stem {stem : String} (ordinary : ∀ c ∈ stem.toList, plain c = true) (key : String) :
    selects (stem ++ "*") key = true ↔ stem.toList <+: key.toList := by
  have pattern : (stem ++ "*").toList = stem.toList ++ ['*'] := by simp
  unfold selects
  rw [pattern,tokens_stem ordinary]
  exact accepts_stem stem.toList key.toList

end Glob
