import Mathlib.Data.List.Forall2
import Mathlib.Data.List.Nodup
import TribeHub.Auth.RegisterAtomicity

/-! The users table as the record of the insertions that were executed. Every row that a run
adds is the row of one call, from the request, the sign-up and the hash of that call. -/
namespace TribeHub.Auth
open Transition

section Calls

variable {config : SupabaseConfig} {supabase : Supabase} (run : Run (machine config supabase))

def HashedAs (i call : Nat) (passwordHash : String) : Prop :=
  ∃ j < i, run.Happens j (.hash call (.ok passwordHash))

/-- The row is the one that the call inserted, and the one it returned if it has returned. -/
structure Wrote (i call : Nat) (row : User) : Prop where
  ended : ∃ record, (run.state i).calls call = some record ∧ record.pc.passed = 5 ∧
    row.email = record.data.email ∧ row.username = record.data.username ∧
      ∀ user, record.pc = .returned user → user = publicUser row
  answered : Answered run i call row.supabaseId
  hashed : ∃ passwordHash, row.passwordHash = some passwordHash ∧ HashedAs run i call passwordHash
  active : row.deletedAt = none

/-- The calls in the order of their rows. They have returned, or they threw because the reply
to an insertion that was executed did not reach them. -/
structure Ledger (i : Nat) (calls : List Nat) : Prop where
  once : calls.Nodup
  complete : ∀ call, call ∈ calls ↔
    (∃ data user, (run.state i).calls call = some ⟨data,.returned user⟩) ∨
      (Threw (run.state i) call ∧ Executed run call i)
  rows : ∃ rows, (run.state i).users.rows = run.start.users.rows ++ rows ∧
    List.Forall₂ (Wrote run i) calls rows

variable {run} {i call : Nat}

theorem HashedAs.later {passwordHash : String} (hashed : HashedAs run i call passwordHash) :
    HashedAs run (i+1) call passwordHash := by
  obtain ⟨j,before,happens⟩ := hashed
  exact ⟨j,Nat.lt_succ_of_lt before,happens⟩

theorem Wrote.later {row : User} (wrote : Wrote run i call row) : Wrote run (i+1) call row := by
  obtain ⟨⟨record,found,ended,written⟩,answered,⟨passwordHash,stored,hashed⟩,active⟩ := wrote
  have kept := ended_run run found ended (i+1) (Nat.le_succ i)
  exact ⟨⟨record,kept,ended,written⟩,answered.mono run (Nat.le_succ i),
    ⟨passwordHash,stored,hashed.later⟩,active⟩

/-- Whatever the other calls do in between, a call goes on with the hash of its own password. -/
theorem hashed_run (i call : Nat) (data : RegisterRequest) (supabaseUserId : Option String)
    (passwordHash : String) (found : (run.state i).calls call =
      some ⟨data,.create supabaseUserId passwordHash⟩) : HashedAs run i call passwordHash := by
  obtain ⟨j,before,event,happens,_,entered⟩ := entered_at run i call _ found
  generalize reached : RegisterPc.create supabaseUserId passwordHash = pc at entered
  cases entered with
  | begun data unused => contradiction
  | stopped data pc event error waiting reason => contradiction
  | advanced data pc event after waiting step =>
    cases step with
    | hashed theirs digest =>
      obtain ⟨_,rfl⟩ := RegisterPc.create.inj reached
      exact ⟨j,before,happens⟩
    | emailFree | usernameFree | answered => contradiction
  | signedUp data id reply waiting allowed unused grown => cases reply <;> contradiction
  | inserted data theirs digest id now event after waiting created step => cases step <;> contradiction

theorem Executed.mono {k : Nat} (executed : Executed run call i) (later : i ≤ k) : Executed run call k := by
  obtain ⟨j,before,rest⟩ := executed
  exact ⟨j,Nat.lt_of_lt_of_le before later,rest⟩

theorem executed_last {event : Event} (happens : run.Happens i event) :
    Executed run call (i+1) ↔ Executed run call i ∨
      (event.call = call ∧ (run.state (i+1)).users.rows ≠ (run.state i).users.rows) := by
  constructor
  · intro executed
    obtain ⟨j,before,id,now,outcome,data,supabaseUserId,passwordHash,occurs,ran,waiting,allowed⟩ := executed
    rcases Nat.lt_succ_iff_lt_or_eq.mp before with earlier | rfl
    · exact Or.inl ⟨j,earlier,id,now,outcome,data,supabaseUserId,passwordHash,occurs,ran,waiting,allowed⟩
    · obtain rfl := Option.some.inj (happens.symm.trans occurs)
      have row := rowAt_of_executed occurs ran waiting allowed
      exact Or.inr ⟨rfl,by simp [row.grown]⟩
  · intro either
    rcases either with before | ⟨rfl,changed⟩
    · exact before.mono (Nat.le_succ i)
    · rcases (run_move run happens).rows with same |
        ⟨data,supabaseUserId,passwordHash,id,now,after,waiting,created,step,_⟩
      · exact absurd (congrArg UniqueTable.Table.rows same) changed
      · obtain ⟨_,_,_,outcome,equal,ran⟩ := step.ends
        exact ⟨i,Nat.lt_succ_self i,id,now,outcome,data,supabaseUserId,passwordHash,equal ▸ happens,ran,
          waiting,by simp [created]⟩

theorem executed_ended (executed : Executed run call i) :
    (∃ data user, (run.state i).calls call = some ⟨data,.returned user⟩) ∨ Threw (run.state i) call := by
  obtain ⟨j,before,id,now,outcome,data,supabaseUserId,passwordHash,happens,ran,waiting,allowed⟩ := executed
  have row := rowAt_of_executed happens ran waiting allowed
  rcases (run_move run happens).rows with same | ⟨owner,_,_,_,_,after,_,_,step,found⟩
  · have grown := row.grown
    rw [same] at grown
    simp at grown
  · have stayed := ended_run run found step.ends.2.1 i before
    cases step with
    | done => exact Or.inl ⟨owner,_,stayed⟩
    | lost code => exact Or.inr ⟨owner,_,stayed⟩

theorem returned_executed (i call : Nat) (data : RegisterRequest) (user : PublicUser)
    (found : (run.state i).calls call = some ⟨data,.returned user⟩) : Executed run call i := by
  obtain ⟨j,before,event,happens,_,entered⟩ := entered_at run i call _ found
  generalize reached : RegisterPc.returned user = pc at entered
  cases entered with
  | begun data unused => contradiction
  | stopped data pc event error waiting reason => contradiction
  | advanced data pc event after waiting step => cases step <;> contradiction
  | signedUp data id reply waiting allowed unused grown => cases reply <;> contradiction
  | inserted data supabaseUserId passwordHash id now event after waiting created step =>
    obtain ⟨_,_,_,outcome,rfl,ran⟩ := step.ends
    exact ⟨j,before,id,now,outcome,data,supabaseUserId,passwordHash,happens,ran,waiting,by simp [created]⟩

/-- The calls are those with an executed insertion, the rows theirs. -/
structure Booked (run : Run (machine config supabase)) (i : Nat) (calls : List Nat) : Prop where
  once : calls.Nodup
  complete : ∀ call, call ∈ calls ↔ Executed run call i
  rows : ∃ rows, (run.state i).users.rows = run.start.users.rows ++ rows ∧
    List.Forall₂ (Wrote run i) calls rows

theorem Booked.kept {calls : List Nat} (booked : Booked run i calls)
    (unchanged : (run.state (i+1)).users = (run.state i).users)
    (executed : ∀ call, Executed run call (i+1) ↔ Executed run call i) : Booked run (i+1) calls where
  once := booked.once
  complete call := (booked.complete call).trans (executed call).symm
  rows := by
    obtain ⟨rows,split,wrote⟩ := booked.rows
    exact ⟨rows,by rw [unchanged,split],wrote.imp (fun _ _ held => held.later)⟩

theorem wrote_inserted {event : Event} {data : RegisterRequest} {supabaseUserId : Option String}
    {passwordHash id : String} {now : Nat} {after : RegisterPc}
    (waiting : (run.state i).calls event.call = some ⟨data,.create supabaseUserId passwordHash⟩)
    (step : Inserts event.call id now ((userData data supabaseUserId passwordHash).row id now) event after)
    (found : (run.state (i+1)).calls event.call = some ⟨data,after⟩) :
    Wrote run (i+1) event.call ((userData data supabaseUserId passwordHash).row id now) := by
  have answered := answered_run run i event.call _ supabaseUserId waiting rfl
  have hashed := hashed_run i event.call data supabaseUserId passwordHash waiting
  exact ⟨⟨_,found,step.ends.2.1,rfl,rfl,fun user => step.returned⟩,answered.mono run (Nat.le_succ i),
    ⟨passwordHash,rfl,hashed.later⟩,rfl⟩

theorem Booked.inserted {calls : List Nat} (booked : Booked run i calls) {event : Event}
    (happens : run.Happens i event) {data : RegisterRequest} {supabaseUserId : Option String}
    {passwordHash id : String} {now : Nat} {after : RegisterPc}
    (waiting : (run.state i).calls event.call = some ⟨data,.create supabaseUserId passwordHash⟩)
    (created : create (run.state i).users (userData data supabaseUserId passwordHash) id now =
      some (run.state (i+1)).users)
    (step : Inserts event.call id now ((userData data supabaseUserId passwordHash).row id now) event after)
    (found : (run.state (i+1)).calls event.call = some ⟨data,after⟩) :
    Booked run (i+1) (calls ++ [event.call]) where
  once := by
    have new : event.call ∉ calls := by
      intro listed
      obtain ⟨k,before,_,_,_,_,_,_,occurs,_,suspended,_⟩ := (booked.complete event.call).mp listed
      have same := step_once run happens waiting occurs rfl suspended rfl
      omega
    exact List.nodup_append.mpr ⟨booked.once,List.nodup_singleton _,fun call listed other same equal =>
      new (List.mem_singleton.mp same ▸ equal ▸ listed)⟩
  complete call := by
    have changed : (run.state (i+1)).users.rows ≠ (run.state i).users.rows := by
      simp [(create_some created).1]
    rw [List.mem_append,List.mem_singleton,booked.complete call,executed_last happens]
    exact or_congr_right ⟨fun same => ⟨same.symm,changed⟩,fun own => own.1.symm⟩
  rows := by
    obtain ⟨rows,split,wrote⟩ := booked.rows
    refine ⟨rows ++ [(userData data supabaseUserId passwordHash).row id now],?_,?_⟩
    · rw [(create_some created).1,split,List.append_assoc]
    · exact List.rel_append (wrote.imp (fun _ _ held => held.later))
        (.cons (wrote_inserted waiting step found) .nil)

theorem booked_run (run : Run (machine config supabase)) (i : Nat) : ∃ calls, Booked run i calls := by
  induction i with
  | zero =>
    refine ⟨[],List.nodup_nil,fun call => ?_,[],by simp [Run.state],.nil⟩
    simp [Executed]
  | succ i ih =>
    obtain ⟨calls,booked⟩ := ih
    rcases run.cases_at i with ⟨event,happens⟩ | idle
    · rcases (run_move run happens).rows with same |
        ⟨data,supabaseUserId,passwordHash,id,now,after,waiting,created,step,found⟩
      · refine ⟨calls,booked.kept same (fun call => ?_)⟩
        rw [executed_last happens]
        simp [same]
      · exact ⟨_,booked.inserted happens waiting created step found⟩
    · have same := run.state_idle idle
      refine ⟨calls,booked.kept (by rw [same]) (fun call => ⟨fun executed => ?_,fun executed =>
        executed.mono (Nat.le_succ i)⟩)⟩
      obtain ⟨j,before,id,now,outcome,data,supabaseUserId,passwordHash,occurs,rest⟩ := executed
      rcases Nat.lt_succ_iff_lt_or_eq.mp before with earlier | rfl
      · exact ⟨j,earlier,id,now,outcome,data,supabaseUserId,passwordHash,occurs,rest⟩
      · rw [Run.Happens,idle] at occurs
        contradiction

/-- In every interleaving the rows beyond the old ones are, one for one, those of the calls that
returned and of the calls that threw though their insertion was executed: each with the email
and username of its request, the id that Supabase answered and the hash of its own password,
and a call that returned has returned its row as it was written. -/
theorem registrations_ledger (run : Run (machine config supabase)) (i : Nat) :
    ∃ calls, Ledger run i calls := by
  obtain ⟨calls,once,complete,rows⟩ := booked_run run i
  refine ⟨calls,once,fun call => (complete call).trans ⟨fun executed => ?_,fun either => ?_⟩,rows⟩
  · exact (executed_ended executed).imp_right (fun threw => ⟨threw,executed⟩)
  · rcases either with ⟨data,user,found⟩ | ⟨_,executed⟩
    · exact returned_executed i call data user found
    · exact executed

end Calls

theorem lostReply_ledger : ∃ calls, Ledger lostReply 6 calls ∧ 0 ∈ calls := by
  obtain ⟨calls,ledger⟩ := registrations_ledger lostReply 6
  exact ⟨calls,ledger,(ledger.complete 0).mpr (Or.inr ⟨⟨_,_,rfl⟩,lostReply_executed⟩)⟩

end TribeHub.Auth
