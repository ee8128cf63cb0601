import TribeHub.Library.UniqueTable
import TribeHub.Library.Transition
import TribeHub.Auth.Logout

/-! The refresh_tokens table under concurrent logouts. Between its two queries a logout
can meet another one, or the expiry of its token. -/
namespace TribeHub.Auth
open UniqueTable Transition

def refreshTokensIndexes : List (Index RefreshTokenRecord String) :=
  [fun token => some token.id,fun token => some token.tokenHash]

abbrev RefreshTokensTable := Table refreshTokensIndexes

def findActiveRefreshToken (tokens : RefreshTokensTable) (tokenHash : String) (date : Nat) :
    Option RefreshTokenRecord :=
  tokens.rows.find? (fun token =>
    token.tokenHash = tokenHash ∧ token.revokedAt = none ∧ date < token.expiresAt)

def RefreshTokenRecord.revoke (tokenHash reason : String) (date : Nat) (token : RefreshTokenRecord) :
    RefreshTokenRecord :=
  if token.tokenHash = tokenHash ∧ token.revokedAt = none then
    {token with revokedAt := some date, revocationReason := some reason}
  else token

theorem RefreshTokenRecord.revoke_indexed (tokenHash reason : String) (date : Nat)
    (index : Index RefreshTokenRecord String) (listed : index ∈ refreshTokensIndexes)
    (token : RefreshTokenRecord) : index (token.revoke tokenHash reason date) = index token := by
  simp only [refreshTokensIndexes,List.mem_cons,List.not_mem_nil,or_false] at listed
  rcases listed with rfl | rfl <;> simp only [revoke] <;> split <;> rfl

/-- The `updateMany` of AuthRepository.revokeRefreshToken. -/
def revokeRefreshToken (tokens : RefreshTokensTable) (tokenHash reason : String) (date : Nat) :
    RefreshTokensTable :=
  update tokens (RefreshTokenRecord.revoke tokenHash reason date)
    (RefreshTokenRecord.revoke_indexed tokenHash reason date)

/-- A query that rejects may still have been executed. -/
inductive QueryOutcome where
  | done
  | failed (executed : Bool) (rejection : Rejection)

def QueryOutcome.executed : QueryOutcome → Bool
  | .done => true
  | .failed executed _ => executed

def QueryOutcome.result {α : Type} (value : α) : QueryOutcome → Except Rejection α
  | .done => .ok value
  | .failed _ rejection => .error rejection

/-- `since` is the time of the last step of the call. -/
structure LogoutCall where
  rawToken : Option Json
  pc : LogoutPc
  since : Nat

structure LogoutState where
  tokens : RefreshTokensTable
  calls : Nat → Option LogoutCall
  clock : Nat

/-- Each event comes with its time. The date of a find was read when its call began, that of
an update at some moment after its find. -/
inductive LogoutEvent where
  | logout (call : Nat) (rawToken : Option Json) (now : Nat)
  | find (call : Nat) (outcome : QueryOutcome) (now : Nat)
  | revoke (call : Nat) (date : Nat) (outcome : QueryOutcome) (now : Nat)

def LogoutEvent.call : LogoutEvent → Nat
  | .logout call _ _ => call
  | .find call _ _ => call
  | .revoke call _ _ _ => call

def LogoutState.setCall (s : LogoutState) (call : Nat) (record : LogoutCall) : LogoutState :=
  {s with calls := Function.update s.calls call (some record), clock := record.since}

def logoutNext (sha256 : String → String) (s : LogoutState) : LogoutEvent → LogoutState
  | .logout call rawToken now => s.setCall call ⟨rawToken,logoutStart sha256 rawToken,now⟩
  | .find call outcome now =>
    match s.calls call with
    | some ⟨rawToken,.find tokenHash,since⟩ =>
      let token := findActiveRefreshToken s.tokens tokenHash since
      s.setCall call ⟨rawToken,logoutFound tokenHash (outcome.result token),now⟩
    | _ => s
  | .revoke call date outcome now =>
    match s.calls call with
    | some ⟨rawToken,.revoke tokenHash userId,_⟩ =>
      {s.setCall call ⟨rawToken,logoutRevoked userId (outcome.result ()),now⟩ with
        tokens := if outcome.executed then revokeRefreshToken s.tokens tokenHash "logout" date
          else s.tokens}
    | _ => s

def LogoutEnabled (s : LogoutState) : LogoutEvent → Prop
  | .logout call _ now => s.calls call = none ∧ s.clock ≤ now
  | .find call _ now =>
    (∃ rawToken tokenHash since, s.calls call = some ⟨rawToken,.find tokenHash,since⟩) ∧ s.clock ≤ now
  | .revoke call date _ now => (∃ rawToken tokenHash userId since,
    s.calls call = some ⟨rawToken,.revoke tokenHash userId,since⟩ ∧ since ≤ date) ∧
      s.clock ≤ now ∧ date ≤ now

def logoutMachine (sha256 : String → String) : Machine LogoutState LogoutEvent where
  init s := ∀ call, s.calls call = none
  enabled := LogoutEnabled
  next := logoutNext sha256

/-- What a row may become: a live row may be revoked, a revoked one stays as it is. -/
def Revised (old new : RefreshTokenRecord) : Prop :=
  new = old ∨ (old.revokedAt = none ∧ ∃ date reason,
    new = {old with revokedAt := some date, revocationReason := some reason})

theorem Revised.trans {first second third : RefreshTokenRecord} (one : Revised first second)
    (two : Revised second third) : Revised first third := by
  rcases one with rfl | ⟨live,date,reason,rfl⟩
  · exact two
  · rcases two with rfl | ⟨revoked,_⟩
    · exact Or.inr ⟨live,date,reason,rfl⟩
    · simp at revoked

theorem Revised.indexed {old new : RefreshTokenRecord} (revised : Revised old new) :
    new.id = old.id ∧ new.tokenHash = old.tokenHash ∧ new.expiresAt = old.expiresAt := by
  rcases revised with rfl | ⟨_,_,_,rfl⟩ <;> exact ⟨rfl,rfl,rfl⟩

theorem Revised.revoked {old new : RefreshTokenRecord} (revised : Revised old new)
    (revoked : old.revokedAt ≠ none) : new = old := by
  rcases revised with same | ⟨live,_⟩
  · exact same
  · exact absurd live revoked

theorem revoke_revised (tokenHash reason : String) (date : Nat) (token : RefreshTokenRecord) :
    Revised token (token.revoke tokenHash reason date) := by
  unfold RefreshTokenRecord.revoke
  split
  · rename_i matched
    exact Or.inr ⟨matched.2,date,reason,rfl⟩
  · exact Or.inl rfl

theorem revoke_other {tokenHash reason : String} {date : Nat} {token : RefreshTokenRecord}
    (other : token.tokenHash ≠ tokenHash) : token.revoke tokenHash reason date = token := by
  simp [RefreshTokenRecord.revoke,other]

/-- The tables of a run: the same rows in the same places, some of them revoked. -/
def Evolves (old new : RefreshTokensTable) (change : RefreshTokenRecord → RefreshTokenRecord) : Prop :=
  new.rows = old.rows.map change ∧ ∀ token, Revised token (change token)

theorem Evolves.same (tokens : RefreshTokensTable) : Evolves tokens tokens id :=
  ⟨by simp,fun _ => Or.inl rfl⟩

theorem Evolves.trans {first second third : RefreshTokensTable}
    {change more : RefreshTokenRecord → RefreshTokenRecord} (one : Evolves first second change)
    (two : Evolves second third more) : Evolves first third (more ∘ change) :=
  ⟨by rw [two.1,one.1,List.map_map],fun token => (one.2 token).trans (two.2 (change token))⟩

def tokenById (tokens : RefreshTokensTable) (id : String) : Option RefreshTokenRecord :=
  tokens.rows.find? (fun token => token.id = id)

theorem Evolves.byId {old new : RefreshTokensTable} {change : RefreshTokenRecord → RefreshTokenRecord}
    (evolves : Evolves old new change) (id : String) :
    tokenById new id = (tokenById old id).map change := by
  obtain ⟨rows,revised⟩ := evolves
  unfold tokenById
  rw [rows,List.find?_map]
  congr 2
  funext token
  simp [(revised token).indexed.1]

theorem findActiveRefreshToken_none {tokens : RefreshTokensTable} {tokenHash : String} {date : Nat} :
    findActiveRefreshToken tokens tokenHash date = none ↔ ∀ token ∈ tokens.rows,
      token.tokenHash = tokenHash → token.revokedAt = none → token.expiresAt ≤ date := by
  simp [findActiveRefreshToken]

theorem Evolves.inactive {old new : RefreshTokensTable}
    {change : RefreshTokenRecord → RefreshTokenRecord} (evolves : Evolves old new change)
    {tokenHash : String} {date later : Nat} (order : date ≤ later)
    (inactive : findActiveRefreshToken old tokenHash date = none) :
    findActiveRefreshToken new tokenHash later = none := by
  rw [findActiveRefreshToken_none] at inactive ⊢
  obtain ⟨rows,revised⟩ := evolves
  intro token present same live
  rw [rows] at present
  obtain ⟨before,listed,rfl⟩ := List.mem_map.mp present
  rcases revised before with kept | ⟨_,_,_,changed⟩
  · rw [kept] at same live ⊢
    exact Nat.le_trans (inactive before listed same live) order
  · simp [changed] at live

theorem revoke_evolves (tokens : RefreshTokensTable) (tokenHash reason : String) (date : Nat) :
    Evolves tokens (revokeRefreshToken tokens tokenHash reason date)
      (RefreshTokenRecord.revoke tokenHash reason date) :=
  ⟨rfl,revoke_revised tokenHash reason date⟩

theorem revoke_inactive (tokens : RefreshTokensTable) (tokenHash reason : String) (date later : Nat) :
    findActiveRefreshToken (revokeRefreshToken tokens tokenHash reason date) tokenHash later = none := by
  rw [findActiveRefreshToken_none]
  intro token present same live
  obtain ⟨before,_,rfl⟩ := List.mem_map.mp present
  have hash := (revoke_revised tokenHash reason date before).indexed.2.1
  by_cases matched : before.tokenHash = tokenHash ∧ before.revokedAt = none
  · simp [RefreshTokenRecord.revoke,matched] at live
  · simp only [RefreshTokenRecord.revoke,matched,if_false] at same live
    exact absurd ⟨same,live⟩ matched

inductive LogoutStep (sha256 : String → String) (s : LogoutState) :
    LogoutEvent → LogoutCall → RefreshTokensTable → Prop
  | starts (call rawToken now) : LogoutStep sha256 s (.logout call rawToken now)
      ⟨rawToken,logoutStart sha256 rawToken,now⟩ s.tokens
  | finds (call rawToken tokenHash since outcome now)
      (waiting : s.calls call = some ⟨rawToken,.find tokenHash,since⟩) :
      LogoutStep sha256 s (.find call outcome now)
        ⟨rawToken,logoutFound tokenHash
          (outcome.result (findActiveRefreshToken s.tokens tokenHash since)),now⟩ s.tokens
  | revokes (call rawToken tokenHash userId since date outcome now)
      (waiting : s.calls call = some ⟨rawToken,.revoke tokenHash userId,since⟩) :
      LogoutStep sha256 s (.revoke call date outcome now)
        ⟨rawToken,logoutRevoked userId (outcome.result ()),now⟩
        (if outcome.executed then revokeRefreshToken s.tokens tokenHash "logout" date else s.tokens)

theorem logoutNext_step (sha256 : String → String) {s : LogoutState} {event : LogoutEvent}
    (enabled : LogoutEnabled s event) :
    ∃ record tokens, LogoutStep sha256 s event record tokens ∧ s.clock ≤ record.since ∧
      logoutNext sha256 s event =
        ⟨tokens,Function.update s.calls event.call (some record),record.since⟩ := by
  cases event with
  | logout call rawToken now =>
    exact ⟨_,_,.starts call rawToken now,enabled.2,rfl⟩
  | find call outcome now =>
    obtain ⟨⟨rawToken,tokenHash,since,waiting⟩,order⟩ := enabled
    refine ⟨_,_,.finds call rawToken tokenHash since outcome now waiting,order,?_⟩
    simp [logoutNext,waiting,LogoutState.setCall,LogoutEvent.call]
  | revoke call date outcome now =>
    obtain ⟨⟨rawToken,tokenHash,userId,since,waiting,_⟩,order,_⟩ := enabled
    refine ⟨_,_,.revokes call rawToken tokenHash userId since date outcome now waiting,order,?_⟩
    simp [logoutNext,waiting,LogoutState.setCall,LogoutEvent.call]

inductive LogoutCall.Sound (sha256 : String → String) (s : LogoutState) : LogoutCall → Prop
  | finds (raw since) (past : since ≤ s.clock) :
      Sound sha256 s ⟨some (.string raw),.find (sha256 raw),since⟩
  | revokes (raw userId since) : Sound sha256 s ⟨some (.string raw),.revoke (sha256 raw) userId,since⟩
  | noToken (rawToken since) (empty : ∀ raw, rawToken = some (.string raw) → raw = "") :
      Sound sha256 s ⟨rawToken,.returned .noToken,since⟩
  | succeeded (raw log since)
      (inactive : findActiveRefreshToken s.tokens (sha256 raw) s.clock = none) :
      Sound sha256 s ⟨some (.string raw),.returned log,since⟩
  | failed (rawToken message since) : Sound sha256 s ⟨rawToken,.returned (.dbError message),since⟩
  | threw (rawToken since) : Sound sha256 s ⟨rawToken,.threwTypeError,since⟩

section Step

variable {sha256 : String → String} {s t : LogoutState} {event : LogoutEvent} {record : LogoutCall}
  {tokens : RefreshTokensTable}

/-- A step changes only rows with the hash of a token that its call presents. -/
theorem LogoutStep.evolves (step : LogoutStep sha256 s event record tokens)
    (sound : ∀ call old, s.calls call = some old → old.Sound sha256 s) :
    ∃ change, Evolves s.tokens tokens change ∧ ∀ token, change token ≠ token →
      ∃ raw, record.rawToken = some (.string raw) ∧ token.tokenHash = sha256 raw := by
  cases step with
  | revokes call rawToken tokenHash userId since date outcome now waiting =>
    cases sound call _ waiting with
    | revokes raw =>
      cases executed : outcome.executed with
      | false => exact ⟨id,Evolves.same s.tokens,fun token changed => absurd rfl changed⟩
      | true =>
        refine ⟨_,revoke_evolves s.tokens (sha256 raw) "logout" date,fun token changed => ⟨raw,rfl,?_⟩⟩
        by_contra other
        exact changed (revoke_other other)
  | _ => exact ⟨id,Evolves.same s.tokens,fun token changed => absurd rfl changed⟩

theorem LogoutCall.Sound.later {call : LogoutCall} (sound : call.Sound sha256 s)
    {change : RefreshTokenRecord → RefreshTokenRecord} (evolves : Evolves s.tokens t.tokens change)
    (order : s.clock ≤ t.clock) : call.Sound sha256 t := by
  cases sound with
  | finds raw since past => exact .finds raw since (Nat.le_trans past order)
  | revokes raw userId since => exact .revokes raw userId since
  | noToken rawToken since empty => exact .noToken rawToken since empty
  | succeeded raw log since inactive => exact .succeeded raw log since (evolves.inactive order inactive)
  | failed rawToken message since => exact .failed rawToken message since
  | threw rawToken since => exact .threw rawToken since

theorem logoutStart_sound (rawToken : Option Json) (now : Nat) (order : now ≤ t.clock) :
    LogoutCall.Sound sha256 t ⟨rawToken,logoutStart sha256 rawToken,now⟩ := by
  cases rawToken with
  | none => exact .noToken none now (by simp)
  | some value =>
    cases truthy : value.truthy with
    | false =>
      rw [logoutStart_falsy sha256 truthy]
      refine .noToken (some value) now (fun raw same => ?_)
      obtain rfl := Option.some.inj same
      simpa [Json.truthy] using truthy
    | true =>
      rw [logoutStart_truthy sha256 truthy]
      cases value with
      | string raw => exact .finds raw now order
      | _ => exact .threw _ now

theorem LogoutStep.sound (step : LogoutStep sha256 s event record tokens)
    (sound : ∀ call old, s.calls call = some old → old.Sound sha256 s)
    (order : s.clock ≤ record.since) (same : t.tokens = tokens) (clock : t.clock = record.since) :
    record.Sound sha256 t := by
  cases step with
  | starts call rawToken now => exact logoutStart_sound rawToken now (Nat.le_of_eq clock.symm)
  | finds call rawToken tokenHash since outcome now waiting =>
    cases sound call _ waiting with
    | finds raw _ past =>
      cases outcome with
      | failed executed rejection => exact .failed _ _ now
      | done =>
        cases found : findActiveRefreshToken s.tokens (sha256 raw) since with
        | some token =>
          simp only [QueryOutcome.result,logoutFound]
          exact .revokes raw token.userId now
        | none =>
          simp only [QueryOutcome.result,logoutFound]
          -- found nothing at its date, hence nothing unexpired later
          refine .succeeded raw _ now ?_
          rw [same,clock]
          exact (Evolves.same s.tokens).inactive (Nat.le_trans past order) found
  | revokes call rawToken tokenHash userId since date outcome now waiting =>
    cases sound call _ waiting with
    | revokes raw =>
      cases outcome with
      | failed executed rejection => exact .failed _ _ now
      | done =>
        refine .succeeded raw _ now ?_
        rw [same]
        exact revoke_inactive s.tokens (sha256 raw) "logout" date t.clock

theorem LogoutStep.presented (step : LogoutStep sha256 s event record tokens) :
    (∃ now, event = .logout event.call record.rawToken now) ∨
      ∃ old, s.calls event.call = some old ∧ old.rawToken = record.rawToken := by
  cases step with
  | starts call rawToken now => exact Or.inl ⟨now,rfl⟩
  | finds call rawToken tokenHash since outcome now waiting => exact Or.inr ⟨_,waiting,rfl⟩
  | revokes call rawToken tokenHash userId since date outcome now waiting =>
    exact Or.inr ⟨_,waiting,rfl⟩

end Step

theorem call_updated {calls : Nat → Option LogoutCall} {call other : Nat} {record found : LogoutCall}
    (read : Function.update calls call (some record) other = some found) :
    (other = call ∧ found = record) ∨ calls other = some found := by
  by_cases same : other = call
  · subst same
    exact Or.inl ⟨rfl,by simpa using read.symm⟩
  · exact Or.inr (by simpa [same] using read)

section Runs

variable {sha256 : String → String} (run : Run (logoutMachine sha256))

theorem logout_sound (i : Nat) : ∀ call record, (run.state i).calls call = some record →
    record.Sound sha256 (run.state i) := by
  refine run.invariant (fun s => ∀ call record, s.calls call = some record → record.Sound sha256 s)
    (fun s idle call record found => ?_) (fun s event enabled sound call record found => ?_) i
  · rw [idle call] at found
    contradiction
  · obtain ⟨moved,tokens,step,order,after⟩ := logoutNext_step sha256 enabled
    obtain ⟨change,evolves,_⟩ := step.evolves sound
    change (logoutNext sha256 s event).calls call = some record at found
    change record.Sound sha256 (logoutNext sha256 s event)
    rw [after] at found ⊢
    rcases call_updated found with ⟨rfl,rfl⟩ | kept
    · exact step.sound sound order rfl rfl
    · exact (sound call record kept).later evolves order

def Presented (i : Nat) (rawToken : Option Json) : Prop :=
  ∃ k call now, k < i ∧ run.Happens k (.logout call rawToken now)

theorem Presented.later {run : Run (logoutMachine sha256)} {i j : Nat} {rawToken : Option Json}
    (presented : Presented run i rawToken) (order : i ≤ j) : Presented run j rawToken := by
  obtain ⟨k,call,now,earlier,happens⟩ := presented
  exact ⟨k,call,now,Nat.lt_of_lt_of_le earlier order,happens⟩

theorem state_step {i : Nat} {event : LogoutEvent} (happens : run.Happens i event) :
    ∃ record tokens, LogoutStep sha256 (run.state i) event record tokens ∧
      (run.state i).clock ≤ record.since ∧ run.state (i+1) =
        ⟨tokens,Function.update (run.state i).calls event.call (some record),record.since⟩ := by
  obtain ⟨record,tokens,step,order,after⟩ := logoutNext_step sha256 (run.enabled happens)
  exact ⟨record,tokens,step,order,(run.state_succ happens).trans after⟩

theorem calls_presented (i : Nat) : ∀ call record, (run.state i).calls call = some record →
    Presented run i record.rawToken := by
  refine run.induct_from 0 (fun i => ∀ call record, (run.state i).calls call = some record →
    Presented run i record.rawToken) ?_ ?_ ?_ i (Nat.zero_le i)
  · intro call record found
    rw [run.init_state call] at found
    contradiction
  · intro i _ _ idle ih call record found
    rw [idle] at found
    exact (ih call record found).later (Nat.le_succ i)
  · intro i event _ happens _ ih call record found
    obtain ⟨moved,tokens,step,_,after⟩ := state_step run happens
    rw [after] at found
    rcases call_updated found with ⟨rfl,rfl⟩ | kept
    · rcases step.presented with ⟨now,begun⟩ | ⟨old,waiting,token⟩
      · exact ⟨i,event.call,now,Nat.lt_succ_self i,begun ▸ happens⟩
      · exact token ▸ (ih event.call old waiting).later (Nat.le_succ i)
    · exact (ih call record kept).later (Nat.le_succ i)

/-- From one position to a later one the table evolves, in rows of presented tokens only. -/
theorem tokens_evolve {i : Nat} : ∀ j, i ≤ j → (run.state i).clock ≤ (run.state j).clock ∧
    ∃ change, Evolves (run.state i).tokens (run.state j).tokens change ∧
      ∀ token, change token ≠ token →
        ∃ raw, Presented run j (some (.string raw)) ∧ token.tokenHash = sha256 raw := by
  apply run.induct_from i
  · exact ⟨Nat.le_refl _,id,Evolves.same _,fun token changed => absurd rfl changed⟩
  · intro j _ _ idle ih
    obtain ⟨order,change,evolves,reason⟩ := ih
    rw [idle]
    refine ⟨order,change,evolves,fun token changed => ?_⟩
    obtain ⟨raw,presented,hash⟩ := reason token changed
    exact ⟨raw,presented.later (Nat.le_succ j),hash⟩
  · intro j event _ happens _ ih
    obtain ⟨order,change,evolves,reason⟩ := ih
    obtain ⟨record,tokens,step,later,after⟩ := state_step run happens
    obtain ⟨more,grows,cause⟩ := step.evolves (logout_sound run j)
    have listed : (run.state (j+1)).calls event.call = some record := by
      rw [after]
      exact Function.update_self ..
    have shown := calls_presented run (j+1) event.call record listed
    rw [after]
    refine ⟨Nat.le_trans order later,more ∘ change,evolves.trans grows,fun token changed => ?_⟩
    by_cases first : change token = token
    · obtain ⟨raw,token_eq,hash⟩ := cause token (by simpa [first] using changed)
      exact ⟨raw,token_eq ▸ shown,hash⟩
    · obtain ⟨raw,presented,hash⟩ := reason token first
      exact ⟨raw,presented.later (Nat.le_succ j),hash⟩

def RevokesAt (i : Nat) (id : String) : Prop :=
  ∃ old new, tokenById (run.state i).tokens id = some old ∧
    tokenById (run.state (i+1)).tokens id = some new ∧ old.revokedAt = none ∧ new.revokedAt ≠ none

/-- After a logout that returned without a failed query the token is never active again. -/
def Effective (raw : String) : Prop :=
  ∀ i call since log, (run.state i).calls call = some ⟨some (.string raw),.returned log,since⟩ →
    (∀ message, log ≠ .dbError message) → ∀ j, i ≤ j → ∀ date, (run.state j).clock ≤ date →
      findActiveRefreshToken (run.state j).tokens (sha256 raw) date = none

structure Revocation : Prop where
  writeOnce : ∀ i j id token, i ≤ j → tokenById (run.state i).tokens id = some token →
    token.revokedAt ≠ none → tokenById (run.state j).tokens id = some token
  onceOnly : ∀ i j id, RevokesAt run i id → RevokesAt run j id → i = j
  unpresented : ∀ i j id token, i ≤ j → tokenById (run.state i).tokens id = some token →
    (∀ raw, Presented run j (some (.string raw)) → token.tokenHash ≠ sha256 raw) →
      tokenById (run.state j).tokens id = some token
  effective : ∀ raw, raw ≠ "" → Effective run raw

theorem revoked_stays {i j : Nat} {id : String} {token : RefreshTokenRecord} (order : i ≤ j)
    (found : tokenById (run.state i).tokens id = some token) (revoked : token.revokedAt ≠ none) :
    tokenById (run.state j).tokens id = some token := by
  obtain ⟨_,change,evolves,_⟩ := tokens_evolve run j order
  rw [evolves.byId id,found,Option.map_some,(evolves.2 token).revoked revoked]

theorem not_revoked_twice {i j : Nat} {id : String} (first : RevokesAt run i id)
    (second : RevokesAt run j id) : j ≤ i := by
  by_contra later
  obtain ⟨_,token,_,found,_,revoked⟩ := first
  obtain ⟨old,_,read,_,live,_⟩ := second
  have kept := revoked_stays run (by omega : i+1 ≤ j) found revoked
  obtain rfl := Option.some.inj (kept.symm.trans read)
  exact revoked live

theorem logout_effective {raw : String} (token : raw ≠ "") : Effective run raw := by
  intro i call since log returned succeeded j order date later
  obtain ⟨clock,change,evolves,_⟩ := tokens_evolve run j order
  cases logout_sound run i call _ returned with
  | noToken _ _ empty => exact absurd (empty raw rfl) token
  | succeeded _ _ _ inactive => exact evolves.inactive (Nat.le_trans clock later) inactive
  | failed _ message => exact absurd rfl (succeeded message)

/-- However logouts interleave and fail, each row is revoked at most once and keeps the
record of it, only rows of presented tokens change, and a successful logout is final. -/
theorem revocation_laws {sha256 : String → String} (run : Run (logoutMachine sha256)) :
    Revocation run where
  writeOnce _ _ _ _ order found revoked := revoked_stays run order found revoked
  onceOnly _ _ _ first second :=
    Nat.le_antisymm (not_revoked_twice run second first) (not_revoked_twice run first second)
  unpresented i j id token order found absent := by
    obtain ⟨_,change,evolves,reason⟩ := tokens_evolve run j order
    have same : change token = token := by
      by_contra changed
      obtain ⟨raw,presented,hash⟩ := reason token changed
      exact absent raw presented hash
    rw [evolves.byId id,found,Option.map_some,same]
  effective _ token := logout_effective run token

end Runs

def emptyTokenTable (sha256 : String → String) : RefreshTokensTable where
  rows := [⟨"token","user",sha256 "",none,none,0,10⟩]
  unique := List.pairwise_singleton _ _

/-- The logout of an empty token makes no query and leaves a row with its hash active. -/
def emptyTokenRun (sha256 : String → String) : Run (logoutMachine sha256) where
  start := ⟨emptyTokenTable sha256,fun _ => none,0⟩
  events := [.logout 0 (some (.string "")) 1]
  starts := fun _ => rfl
  legal := ⟨⟨rfl,Nat.zero_le 1⟩,trivial⟩

theorem empty_token_stays_active :
    ¬∃ sha256, ∀ (run : Run (logoutMachine sha256)) (raw : String), Effective run raw := by
  intro promised
  obtain ⟨sha256,effective⟩ := promised
  have inactive := effective (emptyTokenRun sha256) "" 1 0 1 .noToken rfl (by simp) 1
    (Nat.le_refl 1) 1 (Nat.le_refl 1)
  rw [findActiveRefreshToken_none] at inactive
  have expired : 10 ≤ 1 := inactive _ (List.mem_singleton.mpr rfl) rfl rfl
  exact absurd expired (by decide)

end TribeHub.Auth
