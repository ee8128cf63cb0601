import TribeHub.Auth.ConcurrentRegister
import TribeHub.Auth.RegisterAtomicity

/-! Where the rows and accounts of a run come from. A value that no store used at the
start can only have been taken by another call of the run, so a registration that fails
without a fault of its own has lost to a call that asked for the same value. -/
namespace TribeHub.Auth
open Transition

/-- A row is old or of a call that has ended, an account old or of a call past its sign-up. -/
structure Origin (start s : State) : Prop where
  rows : ∀ row ∈ s.users.rows, row ∈ start.users.rows ∨ ∃ other record,
    s.calls other = some record ∧ record.pc.passed = 5 ∧
      row.email = record.data.email ∧ row.username = record.data.username
  accounts : ∀ account ∈ s.accounts, account ∈ start.accounts ∨ ∃ other record,
    s.calls other = some record ∧ 2 < record.pc.passed ∧ account.email = record.data.email

/-- The id in an answer of Supabase is that of the account it has just made. -/
def AnswersOwn (supabase : Supabase) : Prop :=
  ∀ accounts data outcome, supabase accounts data outcome →
    ∀ id, outcome.reply = .user (some id) → outcome.created = some id

theorem autoConfirm_answersOwn : AnswersOwn autoConfirm := by
  intro accounts data outcome allowed id answered
  rcases allowed with ⟨_,rfl⟩ | ⟨_,made,rfl⟩
  · contradiction
  · exact SignUpReply.user.inj answered

def LinksAccounts (s : State) : Prop :=
  ∀ user ∈ s.users.rows, ∀ id, user.supabaseId = some id → ∃ account ∈ s.accounts, account.id = id

/-- The ids in rows and the ids that calls still carry belong to accounts; a carried id is in no
row, and one call carries it. -/
structure Carriers (s : State) : Prop where
  linked : LinksAccounts s
  carried : ∀ call record id, s.calls call = some record → record.pc.answer = some (some id) →
    ∃ account ∈ s.accounts, account.id = id
  unlinked : ∀ call record id, s.calls call = some record → record.pc.answer = some (some id) →
    ∀ user ∈ s.users.rows, user.supabaseId ≠ some id
  single : ∀ call other record second id, s.calls call = some record → s.calls other = some second →
    record.pc.answer = some (some id) → second.pc.answer = some (some id) → call = other

section Step

variable {config : SupabaseConfig} {supabase : Supabase} {s t : State} {event : Event}

theorem Origin.step {start : State} (origin : Origin start s) (move : Move config supabase s event t) :
    Origin start t where
  rows row present := by
    have kept : row ∈ s.users.rows → row ∈ start.users.rows ∨ ∃ other record,
        t.calls other = some record ∧ record.pc.passed = 5 ∧
          row.email = record.data.email ∧ row.username = record.data.username := by
      intro before
      rcases origin.rows row before with old | ⟨other,record,found,ended,same⟩
      · exact Or.inl old
      · obtain ⟨later,after,_,rfl | ⟨_,beyond⟩⟩ := move.call_kept found
        · exact Or.inr ⟨other,later,after,ended,same⟩
        · have bound := later.pc.passed_le
          omega
    rcases move.rows with same | ⟨data,supabaseUserId,passwordHash,id,now,after,_,created,step,found⟩
    · exact kept (same ▸ present)
    · rw [(create_some created).1] at present
      rcases List.mem_append.mp present with before | new
      · exact kept before
      · obtain rfl := List.mem_singleton.mp new
        exact Or.inr ⟨event.call,_,found,step.ends.2.1,rfl,rfl⟩
  accounts account present := by
    have kept : account ∈ s.accounts → account ∈ start.accounts ∨ ∃ other record,
        t.calls other = some record ∧ 2 < record.pc.passed ∧ account.email = record.data.email := by
      intro before
      rcases origin.accounts account before with old | ⟨other,record,found,beyond,same⟩
      · exact Or.inl old
      · obtain ⟨later,after,data,order⟩ := move.call_kept found
        refine Or.inr ⟨other,later,after,?_,same.trans (congrArg RegisterRequest.email data.symm)⟩
        rcases order with rfl | ⟨_,forward⟩
        · exact beyond
        · exact Nat.lt_trans beyond forward
    rcases move.accounts with same | ⟨data,id,reply,_,waiting,_,grown⟩
    · exact kept (same ▸ present)
    · rw [grown] at present
      rcases List.mem_append.mp present with before | new
      · exact kept before
      · obtain rfl := List.mem_singleton.mp new
        obtain ⟨record,found,entered⟩ := move.moved
        obtain ⟨data,forward⟩ := entered.advances waiting
        exact Or.inr ⟨event.call,record,found,forward,congrArg RegisterRequest.email data.symm⟩

/-- The sign-up of the call has made the account that its answer names. -/
structure Introduces (s t : State) (event : Event) (call : Nat) (id : String) : Prop where
  owner : event.call = call
  unused : ∀ account ∈ s.accounts, account.id ≠ id
  added : ∃ account ∈ t.accounts, account.id = id

theorem Move.carries (own : AnswersOwn supabase) (enabled : Enabled supabase s event)
    (move : Move config supabase s event t) {call : Nat} {record : RegisterCall} {id : String}
    (found : t.calls call = some record) (answer : record.pc.answer = some (some id)) :
    (∃ old, s.calls call = some old ∧ old.pc.answer = some (some id)) ∨
      Introduces s t event call id := by
  rcases move.entered found with before | ⟨owner,entered⟩
  · exact Or.inl ⟨record,before,answer⟩
  · rcases entered.answer answer with ⟨pc,waiting,held⟩ | ⟨created,rfl⟩
    · exact Or.inl ⟨_,waiting,held⟩
    · obtain ⟨⟨data,waiting,allowed⟩,fresh⟩ := enabled
      obtain rfl : created = some id := own _ _ _ allowed id rfl
      refine Or.inr ⟨rfl,fresh id rfl,?_⟩
      cases move with
      | signsUp call data id reply waiting allowed unused =>
        exact ⟨_,List.mem_append_right _ (List.mem_singleton_self _),rfl⟩
      | stops call data pc event error waiting reason => cases reason
      | reads call data pc event after waiting step => cases step
      | creates call data supabaseUserId passwordHash id now users event after waiting created step =>
        cases step

theorem Carriers.step (own : AnswersOwn supabase) (enabled : Enabled supabase s event)
    (carriers : Carriers s) (move : Move config supabase s event t) : Carriers t where
  linked user present id links := by
    have kept : (∃ account ∈ s.accounts, account.id = id) → ∃ account ∈ t.accounts, account.id = id := by
      rintro ⟨account,known,same⟩
      exact ⟨account,move.account_stays known,same⟩
    rcases move.rows with same | ⟨data,supabaseUserId,passwordHash,new,now,after,waiting,created,_⟩
    · exact kept (carriers.linked user (same ▸ present) id links)
    · rw [(create_some created).1] at present
      rcases List.mem_append.mp present with before | inserted
      · exact kept (carriers.linked user before id links)
      · obtain rfl := List.mem_singleton.mp inserted
        exact kept (carriers.carried event.call _ id waiting (congrArg some links))
  carried call record id found answer := by
    rcases move.carries own enabled found answer with ⟨old,before,carried⟩ | introduces
    · obtain ⟨account,known,same⟩ := carriers.carried call old id before carried
      exact ⟨account,move.account_stays known,same⟩
    · exact introduces.added
  unlinked call record id found answer user present := by
    intro links
    rcases move.carries own enabled found answer with ⟨old,before,carried⟩ | introduces
    · rcases move.rows with same | ⟨data,supabaseUserId,passwordHash,new,now,after,waiting,created,step,ended⟩
      · exact carriers.unlinked call old id before carried user (same ▸ present) links
      · rw [(create_some created).1] at present
        rcases List.mem_append.mp present with earlier | inserted
        · exact carriers.unlinked call old id before carried user earlier links
        · -- The inserted row has the id of its own call, which carries nothing from now on.
          obtain rfl := List.mem_singleton.mp inserted
          obtain rfl := carriers.single call event.call old _ id before waiting carried (congrArg some links)
          obtain rfl := Option.some.inj (found.symm.trans ended)
          simp [step.ends.2.2.1] at answer
    · have known : ∃ account ∈ s.accounts, account.id = id := by
        rcases move.rows with same | ⟨data,supabaseUserId,passwordHash,new,now,after,waiting,created,_⟩
        · exact carriers.linked user (same ▸ present) id links
        · rw [(create_some created).1] at present
          rcases List.mem_append.mp present with earlier | inserted
          · exact carriers.linked user earlier id links
          · obtain rfl := List.mem_singleton.mp inserted
            exact carriers.carried event.call _ id waiting (congrArg some links)
      obtain ⟨account,present,same⟩ := known
      exact introduces.unused account present same
  single call other record second id found read answer also := by
    rcases move.carries own enabled found answer with ⟨old,before,carried⟩ | introduces
    · rcases move.carries own enabled read also with ⟨past,earlier,held⟩ | introduces
      · exact carriers.single call other old past id before earlier carried held
      · obtain ⟨account,known,same⟩ := carriers.carried call old id before carried
        exact absurd same (introduces.unused account known)
    · rcases move.carries own enabled read also with ⟨past,earlier,held⟩ | introduced
      · obtain ⟨account,known,same⟩ := carriers.carried other past id earlier held
        exact absurd same (introduces.unused account known)
      · exact introduces.owner.symm.trans introduced.owner

theorem Entered.request {call : Nat} {record : RegisterCall}
    (entered : Entered config supabase s t call event record) :
    event = .register call record.data ∨ ∃ pc, s.calls call = some ⟨record.data,pc⟩ := by
  cases entered with
  | begun data unused => exact Or.inl rfl
  | stopped data pc event error waiting reason => exact Or.inr ⟨pc,waiting⟩
  | advanced data pc event after waiting step => exact Or.inr ⟨pc,waiting⟩
  | signedUp data id reply waiting allowed unused grown => exact Or.inr ⟨_,waiting⟩
  | inserted data supabaseUserId passwordHash id now event after waiting created step =>
    exact Or.inr ⟨_,waiting⟩

/-- A call stopped by a taken value meets the row or account of another call. -/
theorem Taken.rival {start : State} {call : Nat} {data : RegisterRequest} {pc : RegisterPc}
    {error : Thrown} (origin : Origin start s) (carriers : Carriers s) (enabled : Enabled supabase s event)
    (rows : ∀ user ∈ start.users.rows, user.email ≠ data.email ∧ user.username ≠ data.username)
    (accounts : ∀ account ∈ start.accounts, account.email ≠ data.email)
    (waiting : s.calls call = some ⟨data,pc⟩) (suspended : pc.passed < 5)
    (taken : Taken s call data pc event error) :
    ∃ other record, other ≠ call ∧ s.calls other = some record ∧ Shares data record.data := by
  have of_row {user : User} (present : user ∈ s.users.rows)
      (same : user.email = data.email ∨ user.username = data.username) :
      ∃ other record, other ≠ call ∧ s.calls other = some record ∧ Shares data record.data := by
    rcases origin.rows user present with old | ⟨other,record,found,ended,email,username⟩
    · obtain ⟨free,unused⟩ := rows user old
      exact absurd same (not_or.mpr ⟨free,unused⟩)
    · refine ⟨other,record,?_,found,?_⟩
      · intro equal
        subst equal
        obtain rfl := Option.some.inj (waiting.symm.trans found)
        exact absurd ended suspended.ne
      · exact same.imp (fun same => same.symm.trans email) (fun same => same.symm.trans username)
  cases taken with
  | row pc event error status user present same => exact of_row present same
  | index supabaseUserId passwordHash id now error status refused =>
    obtain ⟨user,present,clash⟩ := create_none refused
    rcases clash with same | ⟨linked,same⟩ | same
    · exact absurd same (enabled.2 user present)
    · obtain ⟨theirs,links⟩ := Option.ne_none_iff_exists'.mp linked
      have carries : supabaseUserId = some theirs := same.symm.trans links
      exact absurd links
        (carriers.unlinked call _ theirs waiting (congrArg some carries) user present)
    · exact of_row present same
  | account outcome message error registered answered =>
    obtain ⟨account,present,same⟩ := registered
    rcases origin.accounts account present with old | ⟨other,record,found,beyond,email⟩
    · exact absurd same (accounts account old)
    · refine ⟨other,record,?_,found,Or.inl (same.symm.trans email)⟩
      intro equal
      subst equal
      obtain rfl := Option.some.inj (waiting.symm.trans found)
      simp [RegisterPc.passed] at beyond

end Step

section Runs

variable {config : SupabaseConfig} {supabase : Supabase} (run : Run (machine config supabase))

theorem origin_run (i : Nat) : Origin run.start (run.state i) := by
  apply run.invariant_from 0 (Origin run.start) ?_ ?_ i (Nat.zero_le i)
  · exact ⟨fun row present => Or.inl present,fun account present => Or.inl present⟩
  · intro j event _ happens origin
    exact origin.step (next_move config supabase _ event (run.enabled happens))

theorem carriers_run (own : AnswersOwn supabase) (linked : LinksAccounts run.start) (i : Nat) :
    Carriers (run.state i) := by
  apply run.invariant_from 0 Carriers ?_ ?_ i (Nat.zero_le i)
  · refine ⟨linked,fun call record id found => ?_,fun call record id found => ?_,
      fun call other record second id found => ?_⟩ <;> simp [run.init_state call] at found
  · intro j event _ happens carriers
    have enabled := run.enabled happens
    exact carriers.step own enabled (next_move config supabase _ event enabled)

theorem registered_run (i : Nat) : ∀ call record, (run.state i).calls call = some record →
    ∃ j, run.Happens j (.register call record.data) := by
  induction i using Nat.strong_induction_on with
  | h i ih =>
    intro call record found
    obtain ⟨j,before,event,happens,_,entered⟩ := entered_at run i call record found
    rcases entered.request with rfl | ⟨pc,waiting⟩
    · exact ⟨j,happens⟩
    · exact ih j before call ⟨record.data,pc⟩ waiting

/-- Where no value was used at the start and every answered id is new, a loser shares a value
with another call. -/
theorem loses_to_rival (configured : getSupabaseClient config = .ok ()) (own : AnswersOwn supabase)
    (linked : LinksAccounts run.start) (fresh : FreshValues run) {call i : Nat} {error : Thrown}
    (loses : Loses run call i error) :
    ∃ data other record, (run.state i).calls call = some ⟨data,.threw error⟩ ∧ other ≠ call ∧
      (run.state i).calls other = some record ∧ Shares data record.data := by
  obtain ⟨j,data,pc,event,earlier,happens,suspended,waiting,taken⟩ := loses_taken run configured loses
  obtain ⟨k,registers⟩ := registered_run run j call _ waiting
  obtain ⟨rows,accounts⟩ := fresh k call data registers
  obtain ⟨other,record,distinct,found,shares⟩ := taken.rival (origin_run run j)
    (carriers_run run own linked j) (run.enabled happens) rows accounts waiting suspended
  obtain ⟨⟨request,threw⟩,_⟩ := loses
  obtain ⟨ended,read,kept,_⟩ := call_run run waiting i (Nat.le_of_lt earlier)
  obtain ⟨later,after,same,_⟩ := call_run run found i (Nat.le_of_lt earlier)
  obtain rfl := Option.some.inj (threw.symm.trans read)
  obtain rfl : request = data := kept
  exact ⟨request,other,later,threw,distinct,after,same.symm ▸ shares⟩

end Runs

end TribeHub.Auth
