import VoiceApp.Management.Operations
import VoiceApp.Management.OwnRecord

/-! # Records when a peer address is used again

A task looks its record up by the peer address, not by its id. While no address is accepted
again before the task that uses it has ended, the record found there is the task's own. A
task that still waits when its address is accepted again takes the newer record out.
-/
namespace VoiceApp.Management
open Protocol Server

/-- The record that an access by key gets at. -/
def Op.accessed : (o : Op) → o.Res → Option User
  | .getMut ..,r => r
  | .get _,r => r
  | .remove _,r => r
  | _,_ => none

/-- A step of a task gets at no record but that of its own id, and announces the leaving of
nobody else. -/
def Label.OwnOnly : Label → Prop
  | .exec id o r => (∀ u, o.accessed r = some u → u.id = id) ∧
      ∀ m userId, o = .broadcast m → farewell userId m ≠ none → userId = id
  | _ => True

/-! ## The record at the own address -/

/-- The record at the address of a running task has the id of the task. -/
def OwnRecords (s : ManagementServer) : Prop :=
  ∀ id c u, s.connections.lookup id = some c → c.phase.Alive →
    s.users.lookup c.address = some u → u.id = id

section Runs
variable {trace : Trace} {s s' : ManagementServer} {label : Label}

/-- A step of a task, seen from its ledger. -/
theorem exec_effect {A : Assumptions} {id : UInt64} {c : Connection} {o : Op}
    {k : o.Res → HandlerM Outcome} {r : o.Res} (h : Lifecycle A trace s)
    (hguard : A.guard s (.exec id o r)) (hc : s.connections.lookup id = some c)
    (hp : c.phase = .running o k) (hans : s.Answers o r) :
    ∃ g, (discipline A.reliable id c.address).effect (ledger trace s id c.address) o r g := by
  have hset := h.settled id c hc
  rw [Settled,hp] at hset
  obtain ⟨g,heff,_⟩ := Discipline.wp_op hset (answers_ledger hans hguard)
  exact ⟨g,heff⟩

/-- A task that moves without touching the records was running before. -/
theorem OwnRecords.move (h : OwnRecords s) {s₁ : ManagementServer} {id : UInt64} {c c' : Connection}
    (hc : s.connections.lookup id = some c) (halive : c.phase.Alive) (haddr : c'.address = c.address)
    (hconn : s₁.connections = s.connections)
    (hids : ∀ a u, s₁.users.lookup a = some u → ∃ u', s.users.lookup a = some u' ∧ u'.id = u.id) :
    OwnRecords (s₁.setConnection id c') := by
  intro id' c₂ u hc₂ halive₂ hu
  rw [ManagementServer.setConnection_lookup,hconn] at hc₂
  obtain ⟨u',hu',hid⟩ := hids _ u hu
  split at hc₂
  · rename_i heq
    cases hc₂
    rw [haddr] at hu'
    rw [← hid,heq]
    exact h id c u' hc halive hu'
  · rw [← hid]
    exact h id' c₂ u' hc₂ halive₂ hu'

theorem step_ownRecords (hlife : Lifecycle liveApart trace s) (h : OwnRecords s)
    (hstep : Guarded liveApart.guard Step s label s') : OwnRecords s' := by
  obtain ⟨hguard,hstep⟩ := hstep
  have hsame : ∀ a u, s.users.lookup a = some u → ∃ u', s.users.lookup a = some u' ∧ u'.id = u.id :=
    fun a u hu => ⟨u,hu,rfl⟩
  have halive : ∀ {c : Connection} {phase : Phase}, c.phase = phase → phase.Alive → c.phase.Alive :=
    fun hp h => by rw [hp]; exact h
  cases hstep with
  | @accept address token hid =>
    intro id c u hc hrunning hu
    rw [s.accept_connections] at hc
    rw [s.accept_users] at hu
    split at hc
    · rename_i hnew
      cases hc
      rw [if_pos rfl] at hu
      cases hu
      exact hnew.symm
    · rw [if_neg (hguard id c hc hrunning)] at hu
      exact h id c u hc hrunning hu
  | connect hc hp => exact h.move hc (halive hp trivial) rfl rfl hsame
  | subscribe hc hp => exact h.move hc (halive hp trivial) rfl rfl hsame
  | read hc hp => exact h.move hc (halive hp trivial) rfl rfl hsame
  | recv hc hp => exact h.move hc (halive hp trivial) rfl rfl hsame
  | lagged hc hp => exact h.move hc (halive hp trivial) rfl rfl hsame
  | closed hc hp => exact h.move hc (halive hp trivial) rfl rfl hsame
  | exec hc hp hans hb =>
    obtain ⟨g,heff⟩ := exec_effect hlife hguard hc hp hans
    exact h.move hc (halive hp trivial) rfl (s.perform_connections _) fun a u hu =>
      perform_owner heff hu
  | panic hc hp => exact h.move hc (halive hp trivial) rfl rfl hsame
  | @disconnect id c e hc hp =>
    intro id' c₂ u hc₂ hrunning hu
    have hc₂ : (s.setConnection id { c with phase := .ended }).connections.lookup id' = some c₂ := hc₂
    rw [ManagementServer.setConnection_lookup] at hc₂
    split at hc₂
    · cases hc₂
      exact hrunning.elim
    · exact h id' c₂ u hc₂ hrunning hu

theorem run_ownRecords (hr : Run (Guarded liveApart.guard Step) ManagementServer.new trace s) :
    OwnRecords s := by
  induction hr with
  | refl =>
    intro id c u hc
    simp [ManagementServer.new] at hc
  | snoc hr hstep ih => exact step_ownRecords (run_lifecycle hr) ih hstep

/-- What a task accesses is its own record. -/
theorem exec_accessed {id : UInt64} {o : Op} {r : o.Res}
    (hr : Run (Guarded liveApart.guard Step) ManagementServer.new trace s)
    (hstep : Guarded liveApart.guard Step s (.exec id o r) s') {u : User}
    (hu : o.accessed r = some u) : u.id = id := by
  obtain ⟨c,hc,halive,hat⟩ := run_at hr hstep
  have hown : ∀ {u}, s.users.lookup c.address = some u → u.id = id :=
    fun hu => run_ownRecords hr id c _ hc halive hu
  cases hstep.2 with
  | @exec _ c₂ _ k _ b hc₂ hp hans hb =>
    cases hc.symm.trans hc₂
    obtain ⟨g,heff⟩ := exec_effect (run_lifecycle hr) hstep.1 hc hp hans
    cases o with
    | getMut a update =>
      obtain rfl : a = _ := hat.1
      have hmap : r = (s.users.lookup _).map update := hans
      obtain ⟨u',hu',rfl⟩ := Option.map_eq_some_iff.mp (hmap.symm.trans hu)
      exact (heff.2.1 u').trans (hown hu')
    | get a =>
      obtain rfl : a = _ := hat
      have hget : r = s.users.lookup _ := hans
      exact hown (hget.symm.trans hu)
    | remove a =>
      obtain rfl : a = _ := hat
      have hremove : r = s.users.lookup _ := hans
      exact hown (hremove.symm.trans hu)
    | _ => cases hu

/-- A farewell that a task broadcasts is its own. -/
theorem exec_farewell {id userId : UInt64} {m : BroadcastMessage}
    (hr : Run (Guarded liveApart.guard Step) ManagementServer.new trace s)
    (hstep : Guarded liveApart.guard Step s (.exec id (.broadcast m) ()) s')
    (hm : farewell userId m ≠ none) : userId = id := by
  cases hstep.2 with
  | exec hc hp hans hb =>
    obtain ⟨g,heff⟩ := exec_effect (run_lifecycle hr) hstep.1 hc hp hans
    by_contra hne
    exact hm (heff.1 userId hne)

/-- A record changes by a step of its own task only, or its address is accepted again when
this task has ended. -/
theorem record_kept {a : SocketAddr} {u : User}
    (hr : Run (Guarded liveApart.guard Step) ManagementServer.new trace s)
    (hstep : Guarded liveApart.guard Step s label s') (hu : s.users.lookup a = some u) :
    s'.users.lookup a = some u ∨ label.actor = some u.id ∨ ∃ token, label = .accept a token ∧
      ∀ c, s.connections.lookup u.id = some c → ¬ c.phase.Alive := by
  have hlife := run_lifecycle hr
  obtain ⟨c,hc,haddr⟩ := hlife.owner a u hu
  obtain ⟨hguard,hstep⟩ := hstep
  cases hstep with
  | @accept address token =>
    by_cases ha : a = address
    · refine .inr (.inr ⟨token,by rw [ha],?_⟩)
      intro c₂ hc₂ halive
      cases hc.symm.trans hc₂
      exact hguard u.id c hc halive (haddr.trans ha)
    · left
      rw [s.accept_users,if_neg ha]
      exact hu
  | @exec id c₂ o k r b hc₂ hp hans hb =>
    by_cases hid : id = u.id
    · right
      left
      exact congrArg some hid
    · left
      have halive : c₂.phase.Alive := by rw [hp]; trivial
      obtain ⟨g,heff⟩ := exec_effect hlife hguard hc₂ hp hans
      have hne : a ≠ c₂.address := by
        rintro rfl
        exact hid (run_ownRecords hr id c₂ u hc₂ halive hu).symm
      have hkept := perform_users heff hne
      exact hkept.trans hu
  | _ => exact .inl hu

end Runs

/-! ## A task that has not noticed -/

section Stale
variable {s : ManagementServer} {id : UInt64} {c : Connection} {b : Bytes}

/-- The farewell of a user can be encoded. -/
theorem encode_userLeftServer (id : UInt64) : ∃ data, (Packet.userLeftServer id).encode = some data :=
  Packet.plain_encodes _ rfl rfl (by simp [Packet.payloadLen])

/-- A task waits when its address is accepted again. At the end of its stream it takes the
newer user's record out and says that this user has left. -/
theorem run_stale (hc : s.connections.lookup id = some c) (hp : c.phase = .select b)
    (hne : id ≠ s.nextUserId) (token : UInt64) :
    ∃ data s', (Packet.userLeftServer s.nextUserId).encode = some data ∧
      Run Step (s.accept c.address token) [.read id (.ok []),
        .exec id (.remove c.address) (some (s.newUser token)),
        .exec id (.encode (.userLeftServer s.nextUserId)) data,
        .exec id (.broadcast ⟨none,data⟩) ()] s' ∧
      s'.users.lookup c.address = none := by
  obtain ⟨data,hdata⟩ := encode_userLeftServer s.nextUserId
  have hc' : (s.accept c.address token).connections.lookup id = some c := by
    rw [s.accept_connections,if_neg hne,hc]
  have h₁ := Run.single (Step.read (r := .ok []) hc' hp (Nat.zero_le _))
  have hprogram : handleRead c.address b (.ok []) = .op (.remove c.address) fun
      | none => .ret (.exit .eof)
      | some user => announcing none (.userLeftServer user.id)
        ((if user.inVoice then announcing none (.userLeftVoice user.id) (.ret ()) else .ret ())
          >>= fun _ => .ret (.exit .eof)) := by
    change handleDisconnect c.address >>= _ = _
    rw [handleDisconnect_eq]
    refine congrArg (Proc.op _) (funext fun record => ?_)
    cases record <;> rfl
  rw [hprogram] at h₁
  have hanswer : (s.accept c.address token).Answers (.remove c.address) (some (s.newUser token)) := by
    change _ = (s.accept c.address token).users.lookup c.address
    rw [s.accept_users,if_pos rfl]
  have h₂ := h₁.snoc (step_exec (b := []) rfl hanswer rfl)
  have h₃ := h₂.snoc (step_exec (o := .encode _) (r := data) (b := []) rfl hdata rfl)
  have h₄ := h₃.snoc (step_exec (o := .broadcast ⟨none,data⟩) (r := ()) (b := []) rfl trivial rfl)
  refine ⟨data,_,hdata,h₄,?_⟩
  exact (s.accept c.address token).users.lookup_erase c.address

/-- In every run in which no address is accepted again before the task that uses it has
ended, a step of a task is about its own user only, and a record changes by a step of its
own task only or is replaced when this task has ended; but whenever the address of a task
that waits is accepted again, this task can go on to remove the newer user. -/
theorem own_record_only {trace : Trace} {s' : ManagementServer} {label : Label}
    (hr : Run (Guarded liveApart.guard Step) ManagementServer.new trace s)
    (hstep : Guarded liveApart.guard Step s label s') :
    label.OwnOnly ∧
    (∀ a u, s.users.lookup a = some u → s'.users.lookup a = some u ∨ label.actor = some u.id ∨
      ∃ token, label = .accept a token ∧
        ∀ c, s.connections.lookup u.id = some c → ¬ c.phase.Alive) ∧
    ∀ id c b token, s.connections.lookup id = some c → c.phase = .select b →
      ∃ data t, (Packet.userLeftServer s.nextUserId).encode = some data ∧
        Run Step (s.accept c.address token) [.read id (.ok []),
          .exec id (.remove c.address) (some (s.newUser token)),
          .exec id (.encode (.userLeftServer s.nextUserId)) data,
          .exec id (.broadcast ⟨none,data⟩) ()] t ∧
        t.users.lookup c.address = none ∧
        ¬ (Label.exec id (.remove c.address) (some (s.newUser token))).OwnOnly := by
  refine ⟨?_,fun a u hu => record_kept hr hstep hu,?_⟩
  · cases label with
    | exec id o r =>
      constructor
      · exact fun u hu => exec_accessed hr hstep hu
      · rintro m userId rfl hm
        exact exec_farewell hr hstep hm
    | _ => trivial
  · intro id c b token hc hp
    have hne : id ≠ s.nextUserId := by
      rintro rfl
      rw [run_fresh hr] at hc
      cases hc
    obtain ⟨data,t,hdata,hrun,hgone⟩ := run_stale hc hp hne token
    refine ⟨data,t,hdata,hrun,hgone,?_⟩
    intro hown
    exact hne (hown.1 _ rfl).symm

/-- User 1 closes its connection; its task removes the record of user 1. -/
theorem own_record_only_leaving : ∃ trace s s',
    Run (Guarded liveApart.guard Step) ManagementServer.new trace s ∧
    Guarded liveApart.guard Step s
      (.exec 1 (.remove (.v4 1 1)) (some ⟨1,none,false,false,11⟩)) s' ∧
    (Label.exec 1 (.remove (.v4 1 1)) (some ⟨1,none,false,false,11⟩)).OwnOnly := by
  have hsolo : Run (Guarded liveApart.guard Step) ManagementServer.new _ _ :=
    run_solo fun _ _ h _ _ => h
  have hread : Guarded liveApart.guard Step (solo.setConnection 1 soloist) (.read 1 (.ok []))
      (solo.setConnection 1 { soloist with phase := .ofProgram (handleRead (.v4 1 1) [] (.ok [])) }) :=
    ⟨trivial,step_read (r := .ok []) rfl (Nat.zero_le _)⟩
  have hremove : Step (solo.setConnection 1
        { soloist with phase := .ofProgram (handleRead (.v4 1 1) [] (.ok [])) })
      (.exec 1 (.remove (.v4 1 1)) (some ⟨1,none,false,false,11⟩)) _ :=
    step_exec (b := []) rfl rfl rfl
  have hguarded : Guarded liveApart.guard Step _ (.exec 1 (.remove (.v4 1 1)) _) _ := ⟨trivial,hremove⟩
  exact ⟨_,_,_,hsolo.snoc hread,hguarded,(own_record_only (hsolo.snoc hread) hguarded).1⟩

/-- The address of user 1 is accepted for user 2 before the task of user 1 has noticed the
end of its connection. This task then removes the record of user 2, whose connection
stays, and announces that user 2 has left. -/
theorem stale_task_removes_newer : ∃ trace s s' data, Run Step ManagementServer.new trace s ∧
    s.users.lookup (.v4 1 1) = some ⟨2,none,false,false,12⟩ ∧
    (∃ c, s.connections.lookup 2 = some c ∧ c.phase = .spawned) ∧
    (Packet.userLeftServer 2).encode = some data ∧
    Run Step s [.read 1 (.ok []),.exec 1 (.remove (.v4 1 1)) (some ⟨2,none,false,false,12⟩),
      .exec 1 (.encode (.userLeftServer 2)) data,.exec 1 (.broadcast ⟨none,data⟩) ()] s' ∧
    s'.users.lookup (.v4 1 1) = none ∧
    ¬ (Label.exec 1 (.remove (.v4 1 1)) (some ⟨2,none,false,false,12⟩)).OwnOnly := by
  have hsolo : Run (Guarded (fun _ _ => True) Step) ManagementServer.new _ _ :=
    run_solo fun _ _ _ _ _ => trivial
  have hsolo := hsolo.mono fun _ _ _ h => h.2
  have haccept : Step (solo.setConnection 1 soloist) (.accept (.v4 1 1) 12) _ := .accept (by decide)
  have hset : (solo.setConnection 1 soloist).connections.lookup 1 = some soloist :=
    ManagementServer.setConnection_own _ _ _
  obtain ⟨data,t,hdata,hrun,hgone⟩ := run_stale (b := []) hset rfl (by decide) 12
  refine ⟨_,_,t,data,hsolo.snoc haccept,rfl,⟨_,rfl,rfl⟩,hdata,hrun,hgone,?_⟩
  intro hown
  exact absurd (hown.1 _ rfl) (by decide)

end Stale
end VoiceApp.Management
