import Mathlib.Data.List.Basic
import Mathlib.Data.List.Pairwise

/-! Tables under unique indexes. An index reads a nullable column, and a null
never clashes. A table carries the proof that no two of its rows clash, so an
insertion is either checked or refused. -/
namespace UniqueTable

variable {Row Key : Type*}

abbrev Index (Row Key : Type*) := Row → Option Key

def Clash (indexes : List (Index Row Key)) (row other : Row) : Prop :=
  ∃ index ∈ indexes, index row ≠ none ∧ index row = index other

theorem clash_of_value {indexes : List (Index Row Key)} {row other : Row} {index : Index Row Key}
    {value : Key} (member : index ∈ indexes) (first : index row = some value)
    (second : index other = some value) : Clash indexes row other :=
  ⟨index,member,by simp [first],first.trans second.symm⟩

instance [DecidableEq Key] (indexes : List (Index Row Key)) (row other : Row) :
    Decidable (Clash indexes row other) :=
  inferInstanceAs (Decidable (∃ index ∈ indexes, index row ≠ none ∧ index row = index other))

structure Table (indexes : List (Index Row Key)) where
  rows : List Row
  unique : rows.Pairwise (fun row other => ¬Clash indexes row other)

variable {indexes : List (Index Row Key)}

def empty : Table indexes := ⟨[],List.Pairwise.nil⟩

/-- An update that leaves the indexed columns alone. -/
def update (table : Table indexes) (change : Row → Row)
    (kept : ∀ index ∈ indexes, ∀ row, index (change row) = index row) : Table indexes where
  rows := table.rows.map change
  unique := by
    rw [List.pairwise_map]
    apply table.unique.imp
    intro row other apart clash
    obtain ⟨index,listed,value,same⟩ := clash
    rw [kept index listed] at value same
    rw [kept index listed] at same
    exact apart ⟨index,listed,value,same⟩

variable [DecidableEq Key]

def insert (table : Table indexes) (row : Row) : Option (Table indexes) :=
  if free : ∀ other ∈ table.rows, ¬Clash indexes other row then
    some ⟨table.rows ++ [row],by
      rw [List.pairwise_append]
      exact ⟨table.unique,List.pairwise_singleton _ _,fun other present new same =>
        List.mem_singleton.mp same ▸ free other present⟩⟩
  else none

theorem insert_some {table grown : Table indexes} {row : Row}
    (inserted : insert table row = some grown) :
    (∀ other ∈ table.rows, ¬Clash indexes other row) ∧ grown.rows = table.rows ++ [row] := by
  unfold insert at inserted
  split at inserted
  · rename_i free
    exact ⟨free,congrArg Table.rows (Option.some.inj inserted).symm⟩
  · contradiction

theorem insert_none {table : Table indexes} {row : Row} (refused : insert table row = none) :
    ∃ other ∈ table.rows, Clash indexes other row := by
  unfold insert at refused
  split at refused
  · contradiction
  · rename_i taken
    simpa using taken

section Find

variable {index : Index Row Key} {value other : Key} {table grown : Table indexes} {row : Row}
  {change : Row → Row}

def find (table : Table indexes) (index : Index Row Key) (value : Key) : Option Row :=
  table.rows.find? (fun row => index row = some value)

theorem find_update (kept : ∀ index ∈ indexes, ∀ row, index (change row) = index row)
    (listed : index ∈ indexes) :
    find (update table change kept) index value = (find table index value).map change := by
  simp only [find,update,List.find?_map]
  congr 2
  funext row
  simp [kept index listed row]

theorem find_insert (inserted : insert table row = some grown) (listed : index ∈ indexes) :
    find grown index value = if index row = some value then some row else find table index value := by
  obtain ⟨free,rows⟩ := insert_some inserted
  simp only [find,rows,List.find?_append]
  by_cases keyed : index row = some value
  · have missing : table.rows.find? (fun row => index row = some value) = none := by
      simp only [List.find?_eq_none,decide_eq_true_eq]
      intro other present same
      exact free other present (clash_of_value listed same keyed)
    simp [missing,keyed]
  · simp [keyed]

def remove (table : Table indexes) (index : Index Row Key) (value : Key) : Table indexes where
  rows := table.rows.filter (fun row => index row ≠ some value)
  unique := table.unique.filter _

theorem find_remove : find (remove table index value) index other =
    if other = value then none else find table index other := by
  simp only [find,remove,List.find?_filter]
  split
  · rename_i same
    subst same
    simp
  · rename_i differ
    congr 1
    funext row
    by_cases keyed : index row = some other <;> simp [keyed,differ]

/-- Changes the row with the value, if there is one. -/
def revise (table : Table indexes) (index : Index Row Key) (value : Key) (change : Row → Row)
    (kept : ∀ index ∈ indexes, ∀ row, index (change row) = index row) : Table indexes :=
  update table (fun row => if index row = some value then change row else row) (by
    intro index listed row
    split
    · exact kept index listed row
    · rfl)

theorem find_revise (kept : ∀ index ∈ indexes, ∀ row, index (change row) = index row)
    (listed : index ∈ indexes) : find (revise table index value change kept) index other =
      if other = value then (find table index other).map change else find table index other := by
  unfold revise
  rw [find_update _ listed]
  cases found : find table index other with
  | none => simp
  | some row =>
    have keyed : index row = some other := by simpa using List.find?_some found
    by_cases same : other = value <;> simp [keyed,same]

/-- An insertion that revises the row with the value of one index, where there is one; on
another index it may still clash. -/
def upsert (table : Table indexes) (index : Index Row Key) (value : Key) (row : Row)
    (change : Row → Row) (kept : ∀ index ∈ indexes, ∀ row, index (change row) = index row) :
    Option (Table indexes) :=
  match find table index value with
  | some _ => some (revise table index value change kept)
  | none => insert table row

theorem find_upsert {kept : ∀ index ∈ indexes, ∀ row, index (change row) = index row}
    (upserted : upsert table index value row change kept = some grown) (listed : index ∈ indexes)
    (keyed : index row = some value) : find grown index other =
      if other = value then some ((find table index value).elim row change)
      else find table index other := by
  unfold upsert at upserted
  cases found : find table index value with
  | none =>
    rw [found] at upserted
    rw [find_insert upserted listed,keyed]
    simp [eq_comm]
  | some old =>
    rw [found] at upserted
    obtain rfl := Option.some.inj upserted
    rw [find_revise kept listed]
    by_cases same : other = value
    · subst same
      simp [found]
    · simp [same]

end Find

end UniqueTable
