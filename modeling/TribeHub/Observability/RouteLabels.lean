import TribeHub.Library.Js
import TribeHub.Library.Regex

/-! The route labels of MetricsService.normaliseRoute. Its two replacements work segment
by segment, and the known prefixes come down to two of them. -/
namespace TribeHub.Observability
open Text Regex

/-- The class `[0-9a-f]` under the flag `i`. -/
def isHex (c : Char) : Bool :=
  (48 ≤ c.toNat && c.toNat ≤ 57) || (97 ≤ c.toNat && c.toNat ≤ 102) || (65 ≤ c.toNat && c.toNat ≤ 70)

def hex : Regex := .one isHex

def uuidTail : Regex :=
  .seq (times 8 hex) (.seq (char '-') (.seq (times 4 hex) (.seq (char '-') (.seq (times 4 hex)
    (.seq (char '-') (.seq (times 4 hex) (.seq (char '-') (times 12 hex))))))))

/-- `/\/[0-9a-f]{8}-[0-9a-f]{4}-[0-9a-f]{4}-[0-9a-f]{4}-[0-9a-f]{12}/gi` -/
def uuidSegment : Regex := .seq (char '/') uuidTail

/-- `/\/\d+(?=\/|$)/g` -/
def numericSegment : Regex := .seq (char '/') (.seq (.plus Char.isDigit) (.ahead (.either (char '/') .stop)))

def KNOWN_ROUTE_PREFIXES : List String :=
  ["/api/v1/auth","/api/v1/health","/api/v1/feed","/api/v1/search","/api/v1/_internal","/api/v1/",
    "/admin/queues"]

def replaceIds (rawRoute : List Char) : List Char :=
  replaceAll numericSegment "/:id".toList (replaceAll uuidSegment "/:id".toList rawRoute)

def isKnown (normalised : List Char) : Bool :=
  KNOWN_ROUTE_PREFIXES.any (fun known => known.toList.isPrefixOf normalised)

def normaliseRoute (rawRoute : String) : String :=
  if rawRoute = "" ∨ rawRoute = "unknown" then "other"
  else
    let normalised := replaceIds rawRoute.toList
    if isKnown normalised then .ofList normalised else "other"

example : normaliseRoute "/api/v1/posts/42/comments" = "/api/v1/posts/:id/comments" := by decide

def HexRun (count : Nat) (text : List Char) : Prop := text.length = count ∧ ∀ c ∈ text, isHex c = true

/-- The segment is a UUID, 8-4-4-4-12 hex digits in any letter case, and the rest. -/
def UuidThen (segment rest : List Char) : Prop :=
  ∃ a b c d e, (HexRun 8 a ∧ HexRun 4 b ∧ HexRun 4 c ∧ HexRun 4 d ∧ HexRun 12 e) ∧
    segment = a ++ '-' :: (b ++ '-' :: (c ++ '-' :: (d ++ '-' :: (e ++ rest))))

def Numeric (segment : List Char) : Prop := segment ≠ [] ∧ ∀ c ∈ segment, c.isDigit = true

def NormalSegment (segment : List Char) : Prop :=
  ¬Numeric segment ∧ ¬∃ rest, UuidThen segment rest

def dash (text : List Char) : Option (List Char) := leavesRun 1 (fun other => other = '-') text

def uuidLeaves (text : List Char) : Option (List Char) :=
  (leavesRun 8 isHex text).bind (fun text => (dash text).bind (fun text =>
    (leavesRun 4 isHex text).bind (fun text => (dash text).bind (fun text =>
      (leavesRun 4 isHex text).bind (fun text => (dash text).bind (fun text =>
        (leavesRun 4 isHex text).bind (fun text => (dash text).bind (leavesRun 12 isHex))))))))

def numericLeaves : List Char → Option (List Char) := leavesWhole '/' Char.isDigit

theorem uuidTail_determined : Determined uuidTail uuidLeaves :=
  determined_seq (determined_times 8 _) (determined_seq (determined_one _)
    (determined_seq (determined_times 4 _) (determined_seq (determined_one _)
      (determined_seq (determined_times 4 _) (determined_seq (determined_one _)
        (determined_seq (determined_times 4 _) (determined_seq (determined_one _)
          (determined_times 12 _))))))))

theorem uuidLeaves_local : Local '/' uuidLeaves := by
  have run (count : Nat) : Local '/' (leavesRun count isHex) := local_leavesRun count (by decide)
  have apart : Local '/' dash := local_leavesRun 1 (by decide)
  exact (run 8).bind (apart.bind ((run 4).bind (apart.bind ((run 4).bind (apart.bind
    ((run 4).bind (apart.bind (run 12))))))))

theorem numericSegment_determined :
    Determined (.seq (.plus Char.isDigit) (.ahead (.either (char '/') .stop))) numericLeaves :=
  determined_whole (by decide)

theorem numericLeaves_local : Local '/' numericLeaves := local_leavesWhole (by decide)

theorem dash_some {text rest : List Char} : dash text = some rest ↔ text = '-' :: rest := by
  rw [dash,leavesRun_some]
  constructor
  · intro found
    obtain ⟨run,split,size,all⟩ := found
    obtain ⟨c,rfl⟩ := List.length_eq_one_iff.mp size
    have same : c = '-' := by simpa using all c List.mem_cons_self
    rw [split,same]
    rfl
  · intro split
    exact ⟨['-'],split,rfl,by simp⟩

theorem uuidLeaves_some {segment rest : List Char} :
    uuidLeaves segment = some rest ↔ UuidThen segment rest := by
  simp only [uuidLeaves,Option.bind_eq_some_iff,dash_some,leavesRun_some]
  constructor
  · intro found
    obtain ⟨_,⟨a,rfl,first⟩,_,rfl,_,⟨b,rfl,second⟩,_,rfl,_,⟨c,rfl,third⟩,_,rfl,_,⟨d,rfl,fourth⟩,_,rfl,
      e,rfl,fifth⟩ := found
    exact ⟨a,b,c,d,e,⟨first,second,third,fourth,fifth⟩,rfl⟩
  · intro uuid
    obtain ⟨a,b,c,d,e,⟨first,second,third,fourth,fifth⟩,rfl⟩ := uuid
    exact ⟨_,⟨a,rfl,first⟩,_,rfl,_,⟨b,rfl,second⟩,_,rfl,_,⟨c,rfl,third⟩,_,rfl,_,⟨d,rfl,fourth⟩,_,rfl,
      e,rfl,fifth⟩

theorem numericLeaves_some {segment rest : List Char} (plain : '/' ∉ segment) :
    numericLeaves segment = some rest ↔ Numeric segment ∧ rest = [] := leavesWhole_some plain

/-- A segment of a path: an id with the text behind it, or a text that is kept. -/
inductive PathSegment where
  | id (rest : List Char)
  | text (segment : List Char)

def PathSegment.label : PathSegment → List Char
  | .id rest => ":id".toList ++ rest
  | .text segment => segment

def shape (segment : List Char) : PathSegment :=
  match uuidLeaves segment,numericLeaves segment with
  | some rest,_ => .id rest
  | none,some rest => .id rest
  | none,none => .text segment

/-- Both replacements on one segment. -/
def replaceId (segment : List Char) : List Char :=
  replaceSegment numericLeaves ":id".toList (replaceSegment uuidLeaves ":id".toList segment)

theorem not_numeric_id (rest : List Char) : ¬Numeric (":id".toList ++ rest) := by
  intro numeric
  exact absurd (numeric.2 ':' (by simp)) (by decide)

theorem not_uuid_id (rest after : List Char) : ¬UuidThen (":id".toList ++ rest) after := by
  intro uuid
  obtain ⟨a,b,c,d,e,⟨⟨size,all⟩,_⟩,split⟩ := uuid
  cases a with
  | nil => simp at size
  | cons first others =>
    have same : ':' = first := (List.cons.inj split).1
    exact absurd (all first List.mem_cons_self) (by rw [← same]; decide)

theorem normal_id (rest : List Char) : NormalSegment (":id".toList ++ rest) :=
  ⟨not_numeric_id rest,fun uuid => uuid.elim (not_uuid_id rest)⟩

theorem replaceSegment_none {leaves : List Char → Option (List Char)} {replacement segment : List Char}
    (kept : leaves segment = none) : replaceSegment leaves replacement segment = segment := by
  simp [replaceSegment,kept]

theorem plain_id {rest : List Char} (plain : '/' ∉ rest) : '/' ∉ ":id".toList ++ rest := by
  simpa using plain

theorem uuid_rest_plain {segment rest : List Char} (plain : '/' ∉ segment)
    (uuid : uuidLeaves segment = some rest) : '/' ∉ rest := by
  obtain ⟨front,rfl⟩ := uuidLeaves_local.suffix segment rest uuid
  exact fun present => plain (List.mem_append_right front present)

theorem numericLeaves_id {rest : List Char} (plain : '/' ∉ rest) :
    numericLeaves (":id".toList ++ rest) = none := by
  cases found : numericLeaves (":id".toList ++ rest) with
  | none => rfl
  | some after =>
    exact absurd ((numericLeaves_some (plain_id plain)).mp found).1 (not_numeric_id rest)

theorem replaceId_shape {segment : List Char} (plain : '/' ∉ segment) :
    replaceId segment = (shape segment).label := by
  unfold replaceId shape
  cases uuid : uuidLeaves segment with
  | some rest =>
    have kept := numericLeaves_id (uuid_rest_plain plain uuid)
    simp only [replaceSegment,uuid,kept]
    rfl
  | none =>
    rw [replaceSegment_none uuid]
    cases numeric : numericLeaves segment with
    | some rest => simp only [replaceSegment,numeric]; rfl
    | none => exact replaceSegment_none numeric

theorem replaceId_normal {segment : List Char} (plain : '/' ∉ segment) :
    NormalSegment (replaceId segment) ∧ '/' ∉ replaceId segment := by
  rw [replaceId_shape plain]
  unfold shape
  cases uuid : uuidLeaves segment with
  | some rest => exact ⟨normal_id rest,plain_id (uuid_rest_plain plain uuid)⟩
  | none =>
    cases numeric : numericLeaves segment with
    | some rest =>
      obtain ⟨_,rfl⟩ := (numericLeaves_some plain).mp numeric
      exact ⟨normal_id [],plain_id List.not_mem_nil⟩
    | none =>
      have noDigits : ¬Numeric segment := by
        intro digits
        have replaced : numericLeaves segment = some [] := (numericLeaves_some plain).mpr ⟨digits,rfl⟩
        rw [numeric] at replaced
        contradiction
      have noUuid : ¬∃ rest, UuidThen segment rest := by
        intro found
        obtain ⟨rest,starts⟩ := found
        have replaced := uuidLeaves_some.mpr starts
        rw [uuid] at replaced
        contradiction
      exact ⟨⟨noDigits,noUuid⟩,plain⟩

theorem replaceId_of_normal {segment : List Char} (plain : '/' ∉ segment)
    (normal : NormalSegment segment) : replaceId segment = segment := by
  have noUuid : uuidLeaves segment = none := by
    cases uuid : uuidLeaves segment with
    | none => rfl
    | some rest => exact absurd ⟨rest,uuidLeaves_some.mp uuid⟩ normal.2
  have noDigits : numericLeaves segment = none := by
    cases numeric : numericLeaves segment with
    | none => rfl
    | some rest => exact absurd ((numericLeaves_some plain).mp numeric).1 normal.1
  rw [replaceId,replaceSegment_none noUuid,replaceSegment_none noDigits]

theorem replaceUuid_plain {segment : List Char} (plain : '/' ∉ segment) :
    '/' ∉ replaceSegment uuidLeaves ":id".toList segment := by
  unfold replaceSegment
  cases uuid : uuidLeaves segment with
  | some rest => exact plain_id (uuid_rest_plain plain uuid)
  | none => exact plain

/-- The two global replacements are one replacement of every segment. -/
theorem replaceIds_joined {first : List Char} {others : List (List Char)} (plain : '/' ∉ first)
    (apart : ∀ segment ∈ others, '/' ∉ segment) :
    replaceIds (joined '/' first others) = joined '/' first (others.map replaceId) := by
  have between : ∀ segment ∈ others.map (replaceSegment uuidLeaves ":id".toList), '/' ∉ segment := by
    intro segment present
    obtain ⟨source,listed,rfl⟩ := List.mem_map.mp present
    exact replaceUuid_plain (apart source listed)
  unfold replaceIds numericSegment uuidSegment
  have uuids := replaceAll_joined uuidTail_determined uuidLeaves_local ":id".toList plain apart
  have numbers := replaceAll_joined numericSegment_determined numericLeaves_local ":id".toList plain
    between
  have id_text : "/:id".toList = '/' :: ":id".toList := rfl
  rw [id_text,uuids,numbers,List.map_map]
  rfl

theorem digit_isHex {c : Char} (digit : c.isDigit = true) : isHex c = true := by
  have bounds := Js.digit_bounds digit
  simp [isHex]
  omega

/-- A segment with a letter outside the hex digits among its first eight is no id. -/
theorem normal_of_letter {head rest : List Char} (short : head.length ≤ 8)
    (letter : ∃ c ∈ head, isHex c = false) : NormalSegment (head ++ rest) := by
  obtain ⟨c,present,outside⟩ := letter
  have noDigits : ¬Numeric (head ++ rest) := by
    intro numeric
    have digit := digit_isHex (numeric.2 c (List.mem_append_left rest present))
    rw [outside] at digit
    contradiction
  refine ⟨noDigits,fun found => ?_⟩
  obtain ⟨after,a,b,d,e,f,⟨⟨size,all⟩,_⟩,split⟩ := found
  have before : head <+: a := by
    apply List.prefix_of_prefix_length_le (List.prefix_append head rest)
    · rw [split]
      exact List.prefix_append a _
    · omega
  have digit := all c (before.subset present)
  rw [outside] at digit
  contradiction

theorem replaceId_of_letter {head rest : List Char} (short : head.length ≤ 8)
    (letter : ∃ c ∈ head, isHex c = false) (plain : '/' ∉ head ++ rest) :
    replaceId (head ++ rest) = head ++ rest :=
  replaceId_of_normal plain (normal_of_letter short letter)

theorem replaceId_cases {segment : List Char} (plain : '/' ∉ segment) :
    replaceId segment = segment ∨ ∃ rest, replaceId segment = ":id".toList ++ rest := by
  rw [replaceId_shape plain]
  unfold shape
  split
  · exact Or.inr ⟨_,rfl⟩
  · exact Or.inr ⟨_,rfl⟩
  · exact Or.inl rfl

theorem neutral_letter {head : List Char} (short : head.length ≤ 8) (plain : '/' ∉ head)
    (letter : head.all isHex = false) (first : head.head? ≠ some ':') :
    Neutral '/' replaceId head := by
  intro segment apart
  have letter : ∃ c ∈ head, isHex c = false := by simpa using letter
  have nonempty : head ≠ [] := by
    obtain ⟨c,present,_⟩ := letter
    exact List.ne_nil_of_mem present
  have other (rest : List Char) : ¬head <+: ":id".toList ++ rest := by
    intro before
    cases head with
    | nil => exact nonempty rfl
    | cons c others => exact first (congrArg some (List.cons_prefix_cons.mp before).1)
  constructor
  · constructor
    · intro replaced
      rcases replaceId_cases apart with same | ⟨rest,changed⟩
      · exact same.symm.trans replaced
      · exact absurd ⟨[],by rw [List.append_nil,← replaced,changed]⟩ (other rest)
    · intro same
      subst same
      have whole : replaceId (segment ++ []) = segment ++ [] :=
        replaceId_of_letter short letter (by simpa using plain)
      simpa using whole
  · constructor
    · intro before
      rcases replaceId_cases apart with same | ⟨rest,changed⟩
      · exact same ▸ before
      · exact absurd (changed ▸ before) (other rest)
    · intro before
      obtain ⟨rest,rfl⟩ := before
      rw [replaceId_of_letter short letter apart]
      exact List.prefix_append head rest

theorem neutral_empty : Neutral '/' replaceId [] := by
  intro segment apart
  refine ⟨?_,by simp⟩
  rcases replaceId_cases apart with same | ⟨rest,changed⟩
  · rw [same]
  · have nonempty : segment ≠ [] := by
      intro empty
      subst empty
      exact absurd changed (by simp [replaceId,replaceSegment,uuidLeaves,leavesRun,numericLeaves,leavesWhole])
    simp [changed,nonempty]

def apiPrefix : List Char := joined '/' [] ["api".toList,"v1".toList,[]]

def queuesPrefix : List Char := joined '/' [] ["admin".toList,"queues".toList]

theorem isKnown_iff (text : List Char) :
    isKnown text = true ↔ apiPrefix <+: text ∨ queuesPrefix <+: text := by
  simp only [isKnown,List.any_eq_true,List.isPrefixOf_iff_prefix]
  constructor
  · intro found
    obtain ⟨known,listed,before⟩ := found
    by_cases queues : known = "/admin/queues"
    · subst queues
      exact Or.inr before
    · have longer : ∀ known ∈ KNOWN_ROUTE_PREFIXES, known ≠ "/admin/queues" →
          apiPrefix <+: known.toList := by decide
      exact Or.inl ((longer known listed queues).trans before)
  · intro found
    rcases found with api | queues
    · exact ⟨"/api/v1/",by simp [KNOWN_ROUTE_PREFIXES],api⟩
    · exact ⟨"/admin/queues",by simp [KNOWN_ROUTE_PREFIXES],queues⟩

/-- The replacements neither make a path known nor make it unknown. -/
theorem isKnown_replaceIds (text : List Char) : isKnown (replaceIds text) = isKnown text := by
  obtain ⟨first,others,rfl,plain,apart⟩ := exists_joined '/' text
  have kept : ∀ segment ∈ others, '/' ∉ replaceId segment :=
    fun segment present => (replaceId_normal (apart segment present)).2
  have api : apiPrefix <+: joined '/' first (others.map replaceId) ↔
      apiPrefix <+: joined '/' first others := by
    refine joined_prefix_map ?_ (by decide) apart kept plain plain Iff.rfl Iff.rfl
    intro head listed
    simp only [List.mem_cons,List.not_mem_nil,or_false] at listed
    rcases listed with rfl | rfl | rfl
    · exact neutral_letter (by decide) (by decide) (by decide) (by decide)
    · exact neutral_letter (by decide) (by decide) (by decide) (by decide)
    · exact neutral_empty
  have queues : queuesPrefix <+: joined '/' first (others.map replaceId) ↔
      queuesPrefix <+: joined '/' first others := by
    refine joined_prefix_map ?_ (by decide) apart kept plain plain Iff.rfl Iff.rfl
    intro head listed
    simp only [List.mem_cons,List.not_mem_nil,or_false] at listed
    rcases listed with rfl | rfl
    · exact neutral_letter (by decide) (by decide) (by decide) (by decide)
    · exact neutral_letter (by decide) (by decide) (by decide) (by decide)
  rw [Bool.eq_iff_iff,isKnown_iff,isKnown_iff,replaceIds_joined plain apart,api,queues]

/-- The label of a path is the path with its ids replaced if it is known, and `other` if not. -/
theorem normaliseRoute_eq (rawRoute : String) :
    normaliseRoute rawRoute =
      if isKnown rawRoute.toList then .ofList (replaceIds rawRoute.toList) else "other" := by
  unfold normaliseRoute
  by_cases empty : rawRoute = ""
  · subst empty
    decide
  · by_cases unknown : rawRoute = "unknown"
    · subst unknown
      decide
    · simp [empty,unknown,isKnown_replaceIds]

theorem replaceIds_normal (text : List Char) :
    (∀ segment ∈ segments '/' (replaceIds text), NormalSegment segment) ∧
      replaceIds (replaceIds text) = replaceIds text := by
  obtain ⟨first,others,rfl,plain,apart⟩ := exists_joined '/' text
  have replaced : ∀ segment ∈ others.map replaceId, NormalSegment segment ∧ '/' ∉ segment := by
    intro segment present
    obtain ⟨source,listed,rfl⟩ := List.mem_map.mp present
    exact replaceId_normal (apart source listed)
  have again : (others.map replaceId).map replaceId = others.map replaceId := by
    rw [List.map_congr_left (g := id),List.map_id]
    intro segment present
    exact replaceId_of_normal (replaced segment present).2 (replaced segment present).1
  rw [replaceIds_joined plain apart,segments_joined plain (fun s present => (replaced s present).2)]
  refine ⟨fun segment present => (replaced segment present).1,?_⟩
  rw [replaceIds_joined plain (fun s present => (replaced s present).2),again]

/-- The labels are in normal form: no segment is a number or begins with a UUID, and
normalising a label again leaves it as it is. -/
theorem normaliseRoute_normal (rawRoute : String) :
    (∀ segment ∈ segments '/' (normaliseRoute rawRoute).toList, NormalSegment segment) ∧
      normaliseRoute (normaliseRoute rawRoute) = normaliseRoute rawRoute := by
  obtain ⟨normal,again⟩ := replaceIds_normal rawRoute.toList
  cases known : isKnown rawRoute.toList with
  | true =>
    have label : normaliseRoute rawRoute = .ofList (replaceIds rawRoute.toList) := by
      rw [normaliseRoute_eq,known,if_pos rfl]
    rw [label]
    refine ⟨by simpa using normal,?_⟩
    rw [normaliseRoute_eq,String.toList_ofList,isKnown_replaceIds,known,if_pos rfl,again]
  | false =>
    have label : normaliseRoute rawRoute = "other" := by
      rw [normaliseRoute_eq,known]
      rfl
    have none : segments '/' "other".toList = [] := by decide
    rw [label,none]
    exact ⟨by simp,by decide⟩

end TribeHub.Observability
