import Mathlib.Data.List.DropRight
import TribeHub.Auth.BearerTokens
import TribeHub.Library.Js
import TribeHub.Library.Text

/-! The allowed origins that `bootstrap` reads from the environment, for the credentialed CORS of
the whole application. -/
namespace TribeHub.Http
open Auth (Environment)

/-- `String.prototype.trim` -/
def trim (text : List Char) : List Char := (text.dropWhile Js.isSpace).rdropWhile Js.isSpace

/-- `value.split(',').map((o) => o.trim())` -/
def splitOrigins (value : String) : List String :=
  (value.toList.splitOn ',').map (fun item => String.ofList (trim item))

def developmentOrigins : List String :=
  ["http://localhost:3000","http://localhost:5173","http://localhost:4173","http://127.0.0.1:5173",
    "http://127.0.0.1:3000"]

/-- An unset variable and an empty one allow no origin. -/
def originsOf (setting : Option String) : List String :=
  if setting.getD "" = "" then [] else splitOrigins (setting.getD "")

/-- What an object literal answers for keys that it does not have itself. -/
def inheritedKeys : List String :=
  ["constructor","__defineGetter__","__defineSetter__","hasOwnProperty","__lookupGetter__",
    "__lookupSetter__","isPrototypeOf","propertyIsEnumerable","toString","valueOf","__proto__",
    "toLocaleString"]

/-- `process.env.NODE_ENV || 'development'` -/
def nodeEnv (processEnv : Environment) : String :=
  let name := (processEnv "NODE_ENV").getD ""
  if name = "" then "development" else name

/-- `corsOriginsByEnv[nodeEnv] ?? corsOriginsByEnv.development`; `none` is an inherited member of
the object, which is no list of origins. -/
def corsOrigins (processEnv : Environment) : Option (List String) :=
  match nodeEnv processEnv with
  | "development" => some developmentOrigins
  | "staging" => some (originsOf (processEnv "CORS_ORIGINS_STAGING"))
  | "production" => some (originsOf (processEnv "CORS_ORIGINS"))
  | other => if other ∈ inheritedKeys then none else some developmentOrigins

structure Origin where
  text : List Char
  nonempty : text ≠ []
  plain : ∀ c ∈ text, c ≠ ',' ∧ Js.isSpace c = false

/-- An origin between blanks, as it may stand in the variable. -/
structure Item where
  origin : Origin
  before : List Char
  after : List Char
  blank : ∀ c ∈ before ++ after, Js.isSpace c = true

def Item.text (item : Item) : List Char := item.before ++ (item.origin.text ++ item.after)

def Item.name (item : Item) : String := .ofList item.origin.text

def listed (first : Item) (others : List Item) : String :=
  .ofList (Text.joined ',' first.text (others.map Item.text))

theorem trim_item (item : Item) : trim item.text = item.origin.text := by
  have blankBefore : ∀ c ∈ item.before, Js.isSpace c = true :=
    fun c member => item.blank c (List.mem_append_left _ member)
  have blankAfter : ∀ c ∈ item.after.reverse, Js.isSpace c = true :=
    fun c member => item.blank c (List.mem_append_right _ (List.mem_reverse.mp member))
  have starts (text rest : List Char) (some_text : text ≠ [])
      (plain : ∀ c ∈ text, Js.isSpace c = false) :
      (text ++ rest).dropWhile Js.isSpace = text ++ rest := by
    cases text with
    | nil => exact absurd rfl some_text
    | cons c others => simp [plain c List.mem_cons_self]
  have plain (c : Char) (member : c ∈ item.origin.text) := (item.origin.plain c member).2
  unfold trim Item.text List.rdropWhile
  rw [List.dropWhile_append_of_pos blankBefore,starts _ _ item.origin.nonempty plain,
    List.reverse_append,List.dropWhile_append_of_pos blankAfter]
  have turned := starts item.origin.text.reverse [] (by simpa using item.origin.nonempty)
    (fun c member => plain c (List.mem_reverse.mp member))
  rw [List.append_nil] at turned
  rw [turned,List.reverse_reverse]

theorem comma_not_in_item (item : Item) : ',' ∉ item.text := by
  have blank (c : Char) (space : Js.isSpace c = true) : c ≠ ',' := by
    intro same
    subst same
    exact absurd space (by decide)
  intro member
  rcases List.mem_append.mp member with before | later
  · exact blank _ (item.blank _ (List.mem_append_left _ before)) rfl
  · rcases List.mem_append.mp later with within | after
    · exact (item.origin.plain _ within).1 rfl
    · exact blank _ (item.blank _ (List.mem_append_right _ after)) rfl

theorem item_nonempty (item : Item) : item.text ≠ [] := by
  simp [Item.text,item.origin.nonempty]

theorem splitOrigins_listed (first : Item) (others : List Item) :
    splitOrigins (listed first others) = (first :: others).map Item.name := by
  have apart : ∀ segment ∈ others.map Item.text, ',' ∉ segment := by
    intro segment member
    obtain ⟨item,_,rfl⟩ := List.mem_map.mp member
    exact comma_not_in_item item
  simp only [splitOrigins,listed,String.toList_ofList]
  rw [Text.splitOn_joined (comma_not_in_item first) apart,← List.map_cons,List.map_map]
  refine List.map_congr_left fun item _ => ?_
  simp only [Function.comp,trim_item,Item.name]

/-- The variable that lists the items, unset where there are none. -/
def configured : List Item → Option String
  | [] => none
  | first :: others => some (listed first others)

theorem originsOf_configured (items : List Item) : originsOf (configured items) = items.map Item.name := by
  cases items with
  | nil => rfl
  | cons first others =>
    have written : listed first others ≠ "" := by
      intro empty
      have none : Text.joined ',' first.text (others.map Item.text) = [] := by
        simpa [listed] using congrArg String.toList empty
      rw [Text.joined_append] at none
      exact item_nonempty first (List.append_eq_nil_iff.mp none).1
    exact (if_neg written).trans (splitOrigins_listed first others)

/-- In the two deployed environments exactly the listed origins are allowed, none where none are
listed; under any other name, but for the keys that every object has, the local ones are. -/
theorem corsOrigins_configured (processEnv : Environment) :
    (∀ name setting, (name,setting) ∈ [("staging","CORS_ORIGINS_STAGING"),("production","CORS_ORIGINS")] →
      nodeEnv processEnv = name → ∀ items, processEnv setting = configured items →
        corsOrigins processEnv = some (items.map Item.name)) ∧
    (nodeEnv processEnv ∉ ["staging","production"] ++ inheritedKeys →
      corsOrigins processEnv = some developmentOrigins) := by
  constructor
  · intro name setting deployed env items value
    unfold corsOrigins
    simp only [List.mem_cons,Prod.mk.injEq,List.not_mem_nil,or_false] at deployed
    rcases deployed with ⟨rfl,rfl⟩ | ⟨rfl,rfl⟩
    · rw [env,value]
      exact congrArg some (originsOf_configured items)
    · rw [env,value]
      exact congrArg some (originsOf_configured items)
  · intro other
    simp only [List.mem_append,List.mem_cons,List.not_mem_nil,or_false,not_or] at other
    unfold corsOrigins
    split
    · rfl
    · rename_i staging
      exact absurd staging other.1.1
    · rename_i production
      exact absurd production other.1.2
    · exact if_neg (by simpa [inheritedKeys] using other.2)

def site : Item where
  origin := ⟨"https://tribehub.io".toList,by simp,by simp [Js.isSpace]⟩
  before := []
  after := [' ']
  blank := by simp [Js.isSpace]

def app : Item where
  origin := ⟨"https://app.tribehub.io".toList,by simp,by simp [Js.isSpace]⟩
  before := ['\t',' ']
  after := []
  blank := by simp [Js.isSpace]

def preview : Item where
  origin := ⟨"http://10.0.0.7:4173".toList,by simp,by simp [Js.isSpace]⟩
  before := []
  after := ['\n']
  blank := by simp [Js.isSpace]

def deployment : Environment := fun key =>
  if key = "NODE_ENV" then some "production"
  else if key = "CORS_ORIGINS" then
    some "https://tribehub.io ,\t https://app.tribehub.io,http://10.0.0.7:4173\n"
  else none

theorem deployment_origins : corsOrigins deployment =
    some ["https://tribehub.io","https://app.tribehub.io","http://10.0.0.7:4173"] :=
  (corsOrigins_configured deployment).1 "production" "CORS_ORIGINS" (by decide) rfl [site,app,preview] rfl

end TribeHub.Http
