import VoiceApp.Management.Admission

/-! # Who has been introduced to whom

A client knows the users in its login response and those whose `UserJoinedServer` it has
received. The response lists records that were there while it was collected, and what the
client receives was broadcast after it had subscribed. So it knows whom it is told about
if, in between, no record goes missing whose user is still to be heard of.
-/
namespace VoiceApp.Management
open Protocol Server

/-! ## What is still to come -/

/-- The packet tells its reader that there is the user `v`. -/
def tells (v : UInt64) : Packet → Bool
  | .loginResponse _ id _ participants =>
    id == v || participants.any fun participant => participant.userId == v
  | .userJoinedServer participant => participant.userId == v
  | _ => false

/-- The user has been introduced to the others. -/
def Introduced (s : ManagementServer) (v : UInt64) : Prop := ∃ m ∈ s.broadcasts, m.brings v = true

/-- The task of the user is still running. -/
def Active (s : ManagementServer) (v : UInt64) : Prop :=
  ∃ c, s.connections.lookup v = some c ∧ c.phase.Alive

/-- A receiver at this place of the channel has to know the user already: the first message
still to come about it is no introduction, or will be none. -/
def Relies (s : ManagementServer) (cursor : ℕ) (v : UInt64) : Prop :=
  match (s.broadcasts.drop cursor).find? (BroadcastMessage.names v) with
  | some m => m.brings v = false
  | none => Introduced s v ∧ Active s v

/-- There is a record of the user at the address, with a name. -/
def Stands (s : ManagementServer) (v : UInt64) (address : SocketAddr) : Prop :=
  ∃ u, s.users.lookup address = some u ∧ u.id = v ∧ u.username.isSome = true

/-- The task has subscribed and can go on. -/
def Phase.Listening : Phase → Prop
  | .select _ => True
  | .running o _ => ∀ packet : Packet, o = .encode packet → packet.encode.isSome = true
  | _ => False

/-- The task is about to go on through the users map. -/
def Phase.Visits : Phase → Prop
  | .running o _ => o = .keys ∨ ∃ a, o = .read a
  | _ => False

/-- The records that the login response is to list are still to be collected. -/
def Collects (s : ManagementServer) (id : UInt64) (c : Connection) : Prop :=
  ¬ Introduced s id ∧ (c.phase.Listening ∧ Unnamed s c ∨ c.phase.Visits)

/-- Nobody who still has to collect the records relies on the one at this address. -/
def Spares (s : ManagementServer) (address : SocketAddr) : Prop :=
  ∀ u, s.users.lookup address = some u → ∀ id c, s.connections.lookup id = some c →
    Collects s id c → ¬ Relies s c.cursor u.id

/-- No record goes missing that somebody relies on, nobody subscribes between the removal
of a record and the farewell of its user, and no introduction is lost by lagging behind. -/
def Attentive (s : ManagementServer) : Label → Prop
  | .accept address _ => Spares s address
  | .exec _ (.remove address) _ => Spares s address
  | .subscribe _ => ∀ v c, s.connections.lookup v = some c → c.phase.Alive → Introduced s v →
      ∃ u, s.users.lookup c.address = some u
  | .recv id .lagged => ∀ c, s.connections.lookup id = some c → ∀ v, v ≠ id →
      ∀ m ∈ (s.broadcasts.take (s.broadcasts.length - broadcastChannelCapacity)).drop c.cursor,
        m.brings v = false
  | _ => True

def attentive (s : ManagementServer) (label : Label) : Prop := patient s label ∧ Attentive s label

/-- The address whose record a step takes away. -/
def Label.drops : Label → Option SocketAddr
  | .accept address _ => some address
  | .exec _ (.remove address) _ => some address
  | _ => none

theorem attentive_spares {s : ManagementServer} {label : Label} (h : attentive s label)
    {address : SocketAddr} (hdrops : label.drops = some address) : Spares s address := by
  cases label with
  | accept address' token =>
    cases hdrops
    exact h.2
  | exec id o r =>
    cases o with
    | remove address' =>
      cases hdrops
      exact h.2
    | _ => cases hdrops
  | _ => cases hdrops

theorem attentive_patient {trace : Trace} {s : ManagementServer}
    (h : Run (Guarded attentive Step) ManagementServer.new trace s) :
    Run (Guarded patient Step) ManagementServer.new trace s :=
  h.mono fun _ _ _ h => ⟨h.1.1,h.2⟩

theorem patient_live {trace : Trace} {s : ManagementServer}
    (h : Run (Guarded patient Step) ManagementServer.new trace s) :
    Run (Guarded liveApart.guard Step) ManagementServer.new trace s :=
  h.mono fun _ _ _ h => ⟨h.1.1.1,h.2⟩

/-- A message is about one user at most. -/
theorem names_unique {m : BroadcastMessage} {v w : UInt64} (hv : m.names v = true)
    (hw : m.names w = true) : v = w := by
  have hv' := beq_iff_eq.mp hv
  have hw' := beq_iff_eq.mp hw
  rw [hv'] at hw'
  exact Option.some.inj hw'

section Relies
variable {s s' : ManagementServer} {cursor : ℕ} {v : UInt64}

/-- Nothing is broadcast, and nobody starts running. -/
theorem relies_still (h : Relies s' cursor v) (hbroadcasts : s'.broadcasts = s.broadcasts)
    (hactive : Introduced s v → Active s' v → Active s v) : Relies s cursor v := by
  unfold Relies at h ⊢
  rw [hbroadcasts] at h
  cases hfind : (s.broadcasts.drop cursor).find? (BroadcastMessage.names v) with
  | some m =>
    rw [hfind] at h
    exact h
  | none =>
    rw [hfind] at h
    obtain ⟨⟨m,hm,hbrings⟩,hrunning⟩ := h
    rw [hbroadcasts] at hm
    exact ⟨⟨m,hm,hbrings⟩,hactive ⟨m,hm,hbrings⟩ hrunning⟩

/-- The user `w`, who is introduced now or has been before, says something. -/
theorem relies_broadcast {m : BroadcastMessage} {w : UInt64} (h : Relies s' cursor v)
    (hcursor : cursor ≤ s.broadcasts.length) (hbroadcasts : s'.broadcasts = s.broadcasts ++ [m])
    (hw : m.names w = true) (hintroduced : m.brings w = true ∨ Introduced s w) (hrunning : Active s w)
    (hactive : Introduced s v → Active s' v → Active s v) : Relies s cursor v := by
  unfold Relies at h ⊢
  rw [hbroadcasts,List.drop_append_of_le_length hcursor,List.find?_append] at h
  cases hfind : (s.broadcasts.drop cursor).find? (BroadcastMessage.names v) with
  | some m₀ =>
    rw [hfind] at h
    exact h
  | none =>
    rw [hfind,Option.none_or] at h
    cases hv : m.names v with
    | true =>
      rw [List.find?_cons_of_pos hv] at h
      cases names_unique hw hv
      rcases hintroduced with hbrings | hintroduced
      · change m.brings v = false at h
        rw [hbrings] at h
        cases h
      · exact ⟨hintroduced,hrunning⟩
    | false =>
      rw [List.find?_cons_of_neg (by rw [hv]; exact Bool.false_ne_true),List.find?_nil] at h
      obtain ⟨⟨m₀,hm₀,hbrings⟩,hrunning'⟩ := h
      rw [hbroadcasts] at hm₀
      rcases List.mem_append.mp hm₀ with hm₀ | hm₀
      · exact ⟨⟨m₀,hm₀,hbrings⟩,hactive ⟨m₀,hm₀,hbrings⟩ hrunning'⟩
      · rw [List.mem_singleton.mp hm₀] at hbrings
        rw [brings_names hbrings] at hv
        cases hv

/-- Nothing is still to come. -/
theorem relies_end (hcursor : s.broadcasts.length ≤ cursor) (h : Relies s cursor v) :
    Introduced s v ∧ Active s v := by
  unfold Relies at h
  rw [List.drop_eq_nil_of_le hcursor] at h
  exact h

/-- A message that does not introduce the user has been received. -/
theorem relies_next {m : BroadcastMessage} (hm : s.broadcasts[cursor]? = some m)
    (hbrings : m.brings v = false) (h : Relies s (cursor + 1) v) : Relies s cursor v := by
  obtain ⟨hlt,hget⟩ := List.getElem?_eq_some_iff.mp hm
  unfold Relies at h ⊢
  rw [List.drop_eq_getElem_cons hlt,hget]
  cases hv : m.names v with
  | true =>
    rw [List.find?_cons_of_pos hv]
    exact hbrings
  | false =>
    rw [List.find?_cons_of_neg (by rw [hv]; exact Bool.false_ne_true)]
    exact h

/-- Messages that do not introduce the user have been skipped. -/
theorem relies_skip {cursor' : ℕ} (hle : cursor ≤ cursor') (hlen : cursor' ≤ s.broadcasts.length)
    (hskipped : ∀ m ∈ (s.broadcasts.take cursor').drop cursor, m.brings v = false)
    (h : Relies s cursor' v) : Relies s cursor v := by
  induction cursor', hle using Nat.le_induction with
  | base => exact h
  | succ cursor' hle ih =>
    have hmem : s.broadcasts[cursor'] ∈ (s.broadcasts.take (cursor' + 1)).drop cursor := by
      refine List.mem_iff_getElem.mpr ⟨cursor' - cursor,?_,?_⟩
      · rw [List.length_drop,List.length_take]
        omega
      · rw [List.getElem_drop,List.getElem_take]
        congr 1
        omega
    refine ih (Nat.le_of_succ_le hlen) (fun m hm => hskipped m ?_) ?_
    · exact List.Sublist.subset (((List.take_prefix_take_left (Nat.le_succ cursor')).sublist).drop cursor) hm
    · exact relies_next (List.getElem?_eq_getElem hlen) (hskipped _ hmem) h

end Relies

/-! ## Who speaks -/

/-- A message with all that is known of its sender when it is broadcast. -/
structure Spoken (trace : Trace) (s : ManagementServer) (w : UInt64) (m : BroadcastMessage) : Prop where
  sender : ∃ c, s.connections.lookup w = some c ∧ c.phase.Alive ∧
    (m.exclude = none ∨ m.exclude = some c.address)
  accepted : (admission w trace).accepted w = true
  named : m.names w = true
  introduced : m.brings w = true ∨ (admission w trace).introduced = true

section Steps
variable {trace : Trace} {s s' : ManagementServer} {label : Label}

/-- A step broadcasts nothing, or one message in the name of the task that takes it. -/
theorem step_speaks (hr : Run (Guarded patient Step) ManagementServer.new trace s)
    (hstep : Guarded patient Step s label s') :
    s'.broadcasts = s.broadcasts ∨ ∃ w m, (label = .exec w (.broadcast m) ()) ∧
      s'.broadcasts = s.broadcasts ++ [m] ∧ Spoken trace s w m := by
  rw [step_broadcasts hstep.2]
  cases label with
  | exec w o r =>
    cases o with
    | broadcast m =>
      obtain ⟨c,_,hc,halive,hproper,_⟩ := admissionLaw_kept.run_effect hr hstep
      obtain ⟨haccepted,hexclude,packet,hpacket,_,hnamed,hintroduced⟩ := hproper.allowed
      refine .inr ⟨w,m,rfl,rfl,⟨c,hc,halive,hexclude⟩,haccepted,?_,?_⟩
      · rw [names_encode hpacket,hnamed]
        exact beq_self_eq_true _
      · rw [brings_encode hpacket]
        exact hintroduced
    | _ => exact .inl (List.append_nil _)
  | _ => exact .inl (List.append_nil _)

theorem admission_told (id : UInt64) (trace : Trace) (label : Label) :
    (admission id trace).told <+: (admission id (trace ++ [label])).told := by
  by_cases hactor : label.actor = some id
  · rw [admission_own hactor]
    cases label with
    | exec id' o r =>
      cases hactor
      exact ((admission id trace).own_exec id o r).1
    | recv id' r => cases r <;> exact List.prefix_refl _
    | _ => exact List.prefix_refl _
  · rw [admission_other hactor]

theorem accepted_step {id : UInt64} (h : (admission id trace).accepted id = true) (label : Label) :
    (admission id (trace ++ [label])).accepted id = true :=
  Admission.accepted_mono (admission_told id trace label) h

/-- Only a broadcast introduces. -/
theorem introduced_step {id : UInt64} (h : (admission id (trace ++ [label])).introduced = true) :
    (admission id trace).introduced = true ∨
      ∃ m r, label = .exec id (.broadcast m) r ∧ m.brings id = true := by
  by_cases hactor : label.actor = some id
  · rw [admission_own hactor] at h
    cases label with
    | exec id' o r =>
      cases hactor
      cases o with
      | broadcast m =>
        change ((admission id trace).introduced || m.brings id) = true at h
        rcases Bool.or_eq_true_iff.mp h with h | h
        · exact .inl h
        · exact .inr ⟨m,r,rfl,h⟩
      | write data => cases r <;> exact .inl h
      | _ => exact .inl h
    | recv id' r => cases r <;> exact .inl h
    | _ => exact .inl h
  · rw [admission_other hactor] at h
    exact .inl h

/-- The task that moves was running, unless it has ended before. -/
theorem step_alive {id : UInt64} {c c' : Connection} (hstep : Step s label s')
    (hactor : label.actor = some id) (hc : s.connections.lookup id = some c)
    (hc' : s'.connections.lookup id = some c') :
    c'.address = c.address ∧ (c'.phase.Alive → c.phase.Alive) := by
  have hset : ∀ {t : ManagementServer} {id' : UInt64} {c₁ c₂ : Connection}, some id' = some id →
      (t.setConnection id' c₁).connections.lookup id = some c₂ → c₂ = c₁ := by
    intro t id' c₁ c₂ hid h
    cases hid
    exact Option.some.inj (h.symm.trans (t.setConnection_own id c₁))
  cases hstep with
  | accept => cases hactor
  | disconnect hl hp =>
    cases hset hactor hc'
    cases hactor
    cases hc.symm.trans hl
    exact ⟨rfl,fun h => h.elim⟩
  | _ hl hp =>
    cases hset hactor hc'
    cases hactor
    cases hc.symm.trans hl
    exact ⟨rfl,fun _ => by rw [hp]; trivial⟩

/-- Nobody but a new user starts running. -/
theorem step_active {v : UInt64} {c : Connection}
    (hr : Run (Guarded patient Step) ManagementServer.new trace s) (hstep : Step s label s')
    (hc : s.connections.lookup v = some c) (h : Active s' v) : Active s v := by
  obtain ⟨c',hc',halive⟩ := h
  refine ⟨c,hc,?_⟩
  by_cases hactor : label.actor = some v
  · exact (step_alive hstep hactor hc hc').2 halive
  · cases (step_other hr hstep hactor hc).symm.trans hc'
    exact halive

/-- The record is there before the login, and has a name after it. -/
def Fits (id : UInt64) (accepted : Bool) : Option User → Prop
  | some u => u.id = id ∧ (accepted = true → u.username.isSome = true)
  | none => accepted = true

/-- Whoever is spoken of has logged in, whoever says so has been introduced, and the record
of a running task is its own. -/
structure Vouched (trace : Trace) (s : ManagementServer) : Prop where
  accepted : ∀ m ∈ s.broadcasts, ∀ v, m.names v = true → (admission v trace).accepted v = true
  introduced : ∀ v, (admission v trace).introduced = true → Introduced s v
  record : ∀ id c, s.connections.lookup id = some c → c.phase.Alive →
    Fits id ((admission id trace).accepted id) (s.users.lookup c.address)

/-- The own record after a step of the task. -/
theorem step_record (hr : Run (Guarded patient Step) ManagementServer.new trace s)
    (hstep : Guarded patient Step s label s') {id : UInt64} {c : Connection}
    (hactor : label.actor = some id) (hc : s.connections.lookup id = some c)
    (h : Fits id ((admission id trace).accepted id) (s.users.lookup c.address)) :
    Fits id ((admission id (trace ++ [label])).accepted id) (s'.users.lookup c.address) := by
  have hown := admission_own hactor trace
  have hquiet : s'.users = s.users → ((admission id trace).own id label).told = (admission id trace).told →
      Fits id ((admission id (trace ++ [label])).accepted id) (s'.users.lookup c.address) := by
    intro husers htold
    rw [husers,hown,Admission.accepted,htold]
    exact h
  cases hstep.2 with
  | accept => cases hactor
  | @exec _ c₀ o k r b hl hp hans hb =>
    cases hactor
    cases hc.symm.trans hl
    obtain ⟨c₁,_,hc₁,_,hproper,_⟩ := admissionLaw_kept.run_effect hr hstep
    cases hc.symm.trans hc₁
    have hlocal := hproper.here
    have hallowed := hproper.allowed
    cases o with
    | getMut a update =>
      obtain ⟨rfl,hid⟩ := hlocal
      have hupdated : (s.users.modify c.address update).lookup c.address =
          (s.users.lookup c.address).map update := by
        rw [Table.lookup_modify,if_pos rfl]
      change Fits id _ ((s.users.modify c.address update).lookup c.address)
      rw [hupdated,hown]
      cases hu : s.users.lookup c.address with
      | none =>
        rw [hu] at h
        exact h
      | some u =>
        rw [hu] at h
        exact ⟨(hid u).trans h.1,fun haccepted => hallowed.1 u (h.2 haccepted)⟩
    | remove a =>
      obtain rfl := hlocal
      have herased : (s.users.erase c.address).lookup c.address = none := Finmap.lookup_erase _ _
      change Fits id _ ((s.users.erase c.address).lookup c.address)
      rw [herased]
      exact accepted_step hallowed.1 _
    | write data =>
      cases r with
      | false => exact hquiet rfl rfl
      | true =>
        change Fits id _ (s.users.lookup c.address)
        cases hu : s.users.lookup c.address with
        | none =>
          rw [hu] at h
          exact accepted_step h _
        | some u =>
          rw [hu] at h
          refine ⟨h.1,fun haccepted => ?_⟩
          rw [hown] at haccepted
          rcases accepting_write hallowed haccepted with hbefore | ⟨_,_,_,_,⟨u',hu',hnamed⟩,_⟩
          · exact h.2 hbefore
          · cases hu.symm.trans hu'
            exact hnamed
    | _ => exact hquiet rfl rfl
  | _ => cases hactor; exact hquiet rfl rfl

theorem step_vouched (hr : Run (Guarded patient Step) ManagementServer.new trace s)
    (hstep : Guarded patient Step s label s') (h : Vouched trace s) :
    Vouched (trace ++ [label]) s' := by
  refine ⟨?_,?_,?_⟩
  · intro m hm v hv
    rcases step_speaks hr hstep with hsame | ⟨w,m',rfl,hnew,hspoken⟩
    · rw [hsame] at hm
      exact accepted_step (h.accepted m hm v hv) label
    · rw [hnew] at hm
      rcases List.mem_append.mp hm with hm | hm
      · exact accepted_step (h.accepted m hm v hv) _
      · rw [List.mem_singleton.mp hm] at hv
        rw [names_unique hv hspoken.named]
        exact accepted_step hspoken.accepted _
  · intro v hv
    have hmem : ∀ m ∈ s.broadcasts, m ∈ s'.broadcasts := by
      intro m hm
      rw [step_broadcasts hstep.2]
      exact List.mem_append_left _ hm
    rcases introduced_step hv with hv | ⟨m,r,rfl,hbrings⟩
    · obtain ⟨m,hm,hbrings⟩ := h.introduced v hv
      exact ⟨m,hmem m hm,hbrings⟩
    · refine ⟨m,?_,hbrings⟩
      rw [step_broadcasts hstep.2]
      exact List.mem_append_right _ List.mem_cons_self
  · intro id c' hc' halive'
    by_cases hactor : label.actor = some id
    · obtain ⟨c,hc⟩ := step_actor hstep.2 hactor
      obtain ⟨haddr,halive⟩ := step_alive hstep.2 hactor hc hc'
      rw [haddr]
      exact step_record hr hstep hactor hc (h.record id c hc (halive halive'))
    · rw [admission_other hactor]
      cases hc : s.connections.lookup id with
      | none =>
        obtain ⟨address,token,rfl,rfl,rfl,rfl⟩ := step_appears hstep.2 hactor hc hc'
        rw [s.accept_users,if_pos rfl,run_admission_fresh hr hc]
        exact ⟨rfl,fun haccepted => by cases haccepted⟩
      | some c =>
        cases (step_other hr hstep.2 hactor hc).symm.trans hc'
        have hview := view_others (patient_live hr) ⟨hstep.1.1.1,hstep.2⟩ hactor hc halive'
        have hsame : s'.users.lookup c'.address = s.users.lookup c'.address := congrArg Own.record hview
        rw [hsame]
        exact h.record id c' hc halive'

/-- In every run those who are spoken of are vouched for. -/
theorem run_vouched (hr : Run (Guarded patient Step) ManagementServer.new trace s) :
    Vouched trace s := by
  induction hr with
  | refl =>
    refine ⟨?_,?_,?_⟩
    · intro m hm
      cases hm
    · intro v hv
      cases hv
    · intro id c hc
      simp [ManagementServer.new] at hc
  | snoc hr hstep ih => exact step_vouched hr hstep ih

/-- Who has been introduced has logged in. -/
theorem introduced_accepted (h : Vouched trace s) {v : UInt64} (hv : Introduced s v) :
    (admission v trace).accepted v = true := by
  obtain ⟨m,hm,hbrings⟩ := hv
  exact h.accepted m hm v (brings_names hbrings)

theorem accepted_connection (hr : Run (Guarded patient Step) ManagementServer.new trace s) {v : UInt64}
    (h : (admission v trace).accepted v = true) : ∃ c, s.connections.lookup v = some c := by
  refine Option.ne_none_iff_exists'.mp fun hnone => ?_
  rw [run_admission_fresh hr hnone] at h
  cases h

/-- What a receiver relies on after a step it has relied on before. -/
theorem step_relies (hr : Run (Guarded patient Step) ManagementServer.new trace s)
    (hstep : Guarded patient Step s label s') {cursor : ℕ} {v : UInt64}
    (hcursor : cursor ≤ s.broadcasts.length) (h : Relies s' cursor v) : Relies s cursor v := by
  have hvouched := run_vouched hr
  have hactive : Introduced s v → Active s' v → Active s v := by
    intro hintroduced
    obtain ⟨c,hc⟩ := accepted_connection hr (introduced_accepted hvouched hintroduced)
    exact step_active hr hstep.2 hc
  rcases step_speaks hr hstep with hsame | ⟨w,m,_,hnew,hspoken⟩
  · exact relies_still h hsame hactive
  · obtain ⟨c,hc,halive,_⟩ := hspoken.sender
    exact relies_broadcast h hcursor hnew hspoken.named
      (hspoken.introduced.imp_right (hvouched.introduced w)) ⟨c,hc,halive⟩ hactive

/-- A record stays, with its name, until it is dropped. -/
theorem step_stands (hr : Run (Guarded patient Step) ManagementServer.new trace s)
    (hstep : Guarded patient Step s label s') {v : UInt64} {a : SocketAddr} (h : Stands s v a) :
    label.drops = some a ∨ Stands s' v a := by
  obtain ⟨u,hu,huid,hunamed⟩ := h
  cases hstep.2 with
  | @accept address token =>
    by_cases ha : address = a
    · exact .inl (congrArg some ha)
    · refine .inr ⟨u,?_,huid,hunamed⟩
      rw [s.accept_users,if_neg (Ne.symm ha)]
      exact hu
  | @exec id c o k r b hc hp hans hb =>
    obtain ⟨c₁,_,_,_,hproper,_⟩ := admissionLaw_kept.run_effect hr hstep
    cases o with
    | getMut a' update =>
      refine .inr ?_
      have hupdated : ((s.perform (.getMut a' update)).setConnection id { c with
          phase := .ofProgram (k r), written := c.written ++ b }).users.lookup a =
            if a = a' then (s.users.lookup a').map update else s.users.lookup a :=
        Table.lookup_modify _ _ _ _
      by_cases ha : a = a'
      · cases ha
        rw [if_pos rfl,hu] at hupdated
        exact ⟨update u,hupdated,(hproper.here.2 u).trans huid,hproper.allowed.1 u hunamed⟩
      · rw [if_neg ha,hu] at hupdated
        exact ⟨u,hupdated,huid,hunamed⟩
    | remove a' =>
      by_cases ha : a' = a
      · exact .inl (congrArg some ha)
      · refine .inr ⟨u,?_,huid,hunamed⟩
        exact (Finmap.lookup_erase_ne (Ne.symm ha)).trans hu
    | _ => exact .inr ⟨u,hu,huid,hunamed⟩
  | _ => exact .inr ⟨u,hu,huid,hunamed⟩

/-- What a task asks for has an answer if it can be encoded. -/
theorem exists_answer {id : UInt64} {address : SocketAddr} (g : Affairs) {o : Op}
    (hencode : ∀ packet : Packet, o = .encode packet → packet.encode.isSome = true) :
    ∃ r, (admissionDiscipline id address).answers g o r := by
  cases o with
  | getMut a update => exact ⟨_,fun _ => rfl⟩
  | get a => exact ⟨_,fun _ => rfl⟩
  | remove a => exact ⟨_,fun _ => rfl⟩
  | encode packet => exact Option.isSome_iff_exists.mp (hencode packet rfl)
  | write data => exact ⟨true,fun _ => rfl⟩
  | keys => exact ⟨[],trivial⟩
  | read a => exact ⟨none,trivial⟩
  | broadcast m => exact ⟨(),trivial⟩
  | send e => exact ⟨(),trivial⟩
  | now => exact ⟨0,trivial⟩

/-- Whose login has not been accepted still collects the records, unless it has them all. -/
theorem unaccepted_collects (hr : Run (Guarded patient Step) ManagementServer.new trace s) {id : UInt64}
    {c : Connection} (hc : s.connections.lookup id = some c) (hlistening : c.phase.Listening)
    (hout : (admission id trace).accepted id = false)
    (hscan : ∀ scan, (admission id trace).scan = some scan →
      scan.records.length < scan.addresses.length) : Collects s id c := by
  have hvouched := run_vouched hr
  have hhold := admissionLaw_kept.run hr id c hc
  refine ⟨fun hintroduced => ?_,?_⟩
  · rw [introduced_accepted hvouched hintroduced] at hout
    cases hout
  · cases hp : c.phase with
    | select b =>
      rw [Law.Holds,hp] at hhold
      rcases hhold.2 with houtside | hinside
      · obtain ⟨u,hu,_,hunnamed⟩ := houtside.record
        exact .inl ⟨trivial,u,hu,hunnamed⟩
      · have haccepted : (admission id trace).accepted id = true := hinside.accepted
        rw [hout] at haccepted
        cases haccepted
    | running o k =>
      rw [Law.Holds,hp] at hhold
      rw [hp] at hlistening
      -- some answer lets the law speak
      obtain ⟨r,hr'⟩ := exists_answer (Affairs.view trace s id c) hlistening
      obtain ⟨_,⟨hproper,_⟩,_⟩ := Discipline.wp_op hhold hr'
      have hfits := hvouched.record id c hc (by rw [hp]; trivial)
      cases hu : s.users.lookup c.address with
      | none =>
        rw [hu,hout] at hfits
        cases hfits
      | some u =>
        cases hname : u.username with
        | none => exact .inl ⟨hlistening,u,hu,hname⟩
        | some name =>
          have hnamed : ∃ u, (Affairs.view trace s id c).own.record = some u ∧ u.username.isSome = true :=
            ⟨u,hu,by rw [hname]; rfl⟩
          cases hcollected : (admission id trace).scan with
          | none => exact .inr (.inl (hproper.gathers.keys hout hnamed hcollected))
          | some scan =>
            exact .inr (.inr (hproper.gathers.read hout hnamed hcollected (hscan scan hcollected)))
    | _ =>
      rw [hp] at hlistening
      exact hlistening.elim

end Steps

/-! ## What each client knows -/

/-- The iteration over the users map has seen the user, or will. -/
def Learns (s : ManagementServer) (v : UInt64) : Option Scan → Prop
  | none => ∃ a, Stands s v a
  | some scan => (∃ u, some u ∈ scan.records ∧ u.id = v ∧ u.username.isSome = true) ∨
      ∃ a ∈ scan.addresses.drop scan.records.length, Stands s v a

/-- The client knows of every other user it is going to hear of, or is about to learn of it:
before its login is accepted from the users map, and then from what it is told. -/
structure Informed (s : ManagementServer) (id : UInt64) (c : Connection) (g : Admission) : Prop where
  place : c.cursor ≤ s.broadcasts.length
  own : ∀ m ∈ s.broadcasts.drop c.cursor, m.exclude = some c.address → m.names id = true
  before : g.accepted id = false → ∀ v, v ≠ id → Relies s c.cursor v → Learns s v g.scan
  after : g.accepted id = true → ∀ v, v ≠ id → Relies s c.cursor v → g.told.any (tells v) = true ∨
    ∃ m, g.held = some m ∧ m.shouldSendTo c.address = true ∧ m.brings v = true
  holds : ∀ m, g.held = some m → m.shouldSendTo c.address = true → ∀ v, v ≠ id → m.names v = true →
    g.told.any (tells v) = true ∨ m.brings v = true

/-- The records that are still to be visited stay. -/
theorem learns_stays {s s' : ManagementServer} {v : UInt64} {scan : Option Scan} (h : Learns s v scan)
    (hstands : (∀ sc, scan = some sc → sc.records.length < sc.addresses.length) →
      ∀ a, Stands s v a → Stands s' v a) : Learns s' v scan := by
  cases scan with
  | none =>
    obtain ⟨a,ha⟩ := h
    exact ⟨a,hstands (fun sc hsc => by cases hsc) a ha⟩
  | some scan =>
    rcases h with hseen | ⟨a,hmem,ha⟩
    · exact .inl hseen
    · refine .inr ⟨a,hmem,hstands (fun sc hsc => ?_) a ha⟩
      cases hsc
      by_contra hle
      rw [List.drop_eq_nil_of_le (Nat.le_of_not_lt hle)] at hmem
      cases hmem

/-- An iteration that has come to its end lists whom it has learnt of. -/
theorem complete_lists {s : ManagementServer} {v : UInt64} {scan : Scan}
    (hcomplete : scan.records.length = scan.addresses.length) (h : Learns s v (some scan)) :
    ((scan.records.filterMap fun record => record.bind User.participant).any
      fun participant => participant.userId == v) = true := by
  rcases h with ⟨u,hmem,huid,hunamed⟩ | ⟨a,hmem,_⟩
  · obtain ⟨name,hname⟩ := Option.isSome_iff_exists.mp hunamed
    refine List.any_eq_true.mpr ⟨⟨u.id,name,u.inVoice,u.isMuted⟩,?_,beq_iff_eq.mpr huid⟩
    refine List.mem_filterMap.mpr ⟨some u,hmem,?_⟩
    change u.participant = _
    rw [User.participant,hname]
    rfl
  · rw [List.drop_eq_nil_of_le (Nat.le_of_eq hcomplete.symm)] at hmem
    cases hmem

section Informed
variable {trace : Trace} {s s' : ManagementServer} {label : Label} {id : UInt64} {c : Connection}

/-- A message that is broadcast is kept from nobody but its sender. -/
theorem step_own (hr : Run (Guarded patient Step) ManagementServer.new trace s)
    (hstep : Guarded patient Step s label s') (hc : s.connections.lookup id = some c)
    (halive : c.phase.Alive) (hplace : c.cursor ≤ s.broadcasts.length)
    (h : ∀ m ∈ s.broadcasts.drop c.cursor, m.exclude = some c.address → m.names id = true) :
    ∀ m ∈ s'.broadcasts.drop c.cursor, m.exclude = some c.address → m.names id = true := by
  intro m hm hexclude
  rcases step_speaks hr hstep with hsame | ⟨w,m',_,hnew,hspoken⟩
  · rw [hsame] at hm
    exact h m hm hexclude
  · rw [hnew,List.drop_append_of_le_length hplace] at hm
    rcases List.mem_append.mp hm with hm | hm
    · exact h m hm hexclude
    · rw [List.mem_singleton.mp hm] at hexclude ⊢
      obtain ⟨c',hc',halive',hsender⟩ := hspoken.sender
      have haddr : c'.address = c.address := by
        rcases hsender with hnone | hsome
        · rw [hnone] at hexclude
          cases hexclude
        · exact Option.some.inj (hsome.symm.trans hexclude)
      by_cases hid : w = id
      · rw [← hid]
        exact hspoken.named
      · exact ((run_lifecycle (patient_live hr)).apart id w c c' hc hc' halive halive' hid haddr).elim

theorem listening_alive {phase : Phase} (h : phase.Listening) : phase.Alive := by
  cases phase with
  | select => trivial
  | running => trivial
  | _ => exact h.elim

/-- While others move, a client stays informed. -/
theorem informed_other (hr : Run (Guarded attentive Step) ManagementServer.new trace s)
    (hstep : Guarded attentive Step s label s') (hc : s.connections.lookup id = some c)
    (hlistening : c.phase.Listening) (h : Informed s id c (admission id trace)) :
    Informed s' id c (admission id trace) := by
  have hpatient := attentive_patient hr
  have hstep' : Guarded patient Step s label s' := ⟨hstep.1.1,hstep.2⟩
  have hrelies : ∀ v, Relies s' c.cursor v → Relies s c.cursor v :=
    fun _ => step_relies hpatient hstep' h.place
  refine ⟨?_,?_,?_,?_,h.holds⟩
  · rw [step_broadcasts hstep.2,List.length_append]
    exact Nat.le_add_right_of_le h.place
  · exact step_own hpatient hstep' hc (listening_alive hlistening) h.place h.own
  · intro hout v hne hv
    refine learns_stays (h.before hout v hne (hrelies v hv)) fun hscan a ha => ?_
    rcases step_stands hpatient hstep' ha with hdrops | hstands
    · obtain ⟨u,hu,rfl,_⟩ := ha
      have hcollects := unaccepted_collects hpatient hc hlistening hout hscan
      exact (attentive_spares hstep.1 hdrops u hu id c hc hcollects (hrelies _ hv)).elim
    · exact hstands
  · intro haccepted v hne hv
    exact h.after haccepted v hne (hrelies v hv)

theorem relies_head {cursor : ℕ} {v : UInt64} {m : BroadcastMessage} (hm : s.broadcasts[cursor]? = some m)
    (hnames : m.names v = true) (hbrings : m.brings v = false) : Relies s cursor v := by
  obtain ⟨hlt,hget⟩ := List.getElem?_eq_some_iff.mp hm
  unfold Relies
  rw [List.drop_eq_getElem_cons hlt,hget,List.find?_cons_of_pos hnames]
  exact hbrings

theorem idle_free {address : SocketAddr} {g : Affairs} (h : Outside id address g ∨ Inside id address g) :
    g.admission.Free address := by
  rcases h with h | h
  · exact h.free
  · exact h.free

/-- A branch of the loop begins with nothing left to write. -/
theorem informed_branch {g : Admission} {c' : Connection} {held : Option BroadcastMessage}
    (h : Informed s id c g) (hfree : g.Free c.address) (husers : s'.users = s.users)
    (hbroadcasts : s'.broadcasts = s.broadcasts) (haddr : c'.address = c.address)
    (hle : c.cursor ≤ c'.cursor) (hplace : c'.cursor ≤ s.broadcasts.length)
    (hrelies : ∀ v, v ≠ id → Relies s' c'.cursor v → Relies s c.cursor v ∨
      g.accepted id = true ∧ ∃ m, held = some m ∧ m.shouldSendTo c.address = true ∧ m.brings v = true)
    (hheld : ∀ m, held = some m → m.shouldSendTo c.address = true → g.accepted id = true ∧
      ∀ v, v ≠ id → m.names v = true → Relies s c.cursor v ∨ m.brings v = true) :
    Informed s' id c' ⟨g.told,g.introduced,g.scan,held⟩ := by
  have htold : g.accepted id = true → ∀ v, v ≠ id → Relies s c.cursor v → g.told.any (tells v) = true := by
    intro haccepted v hne hv
    rcases h.after haccepted v hne hv with htold | ⟨m,hm,hsend,_⟩
    · exact htold
    · rw [hfree m hm] at hsend
      cases hsend
  refine ⟨?_,?_,?_,?_,?_⟩
  · rw [hbroadcasts]
    exact hplace
  · rw [hbroadcasts,haddr]
    intro m hm
    refine h.own m ?_
    exact (List.drop_sublist_drop_left _ hle).subset hm
  · intro hout v hne hv
    have hout' : g.accepted id = false := hout
    rcases hrelies v hne hv with hv | ⟨haccepted,_⟩
    · refine learns_stays (h.before hout' v hne hv) fun _ a ha => ?_
      unfold Stands
      rw [husers]
      exact ha
    · rw [hout'] at haccepted
      cases haccepted
  · intro haccepted v hne hv
    rw [haddr]
    exact (hrelies v hne hv).imp (htold haccepted v hne) And.right
  · intro m hm hsend v hne hnames
    rw [haddr] at hsend
    obtain ⟨haccepted,hknown⟩ := hheld m hm hsend
    exact (hknown v hne hnames).imp_left (htold haccepted v hne)

/-- Who subscribes relies on the users that are there, and each still has its record. -/
theorem informed_subscribe (hr : Run (Guarded attentive Step) ManagementServer.new trace s)
    (hstep : Guarded attentive Step s (.subscribe id)
      (s.setConnection id { c with phase := .select [], cursor := s.broadcasts.length }))
    (hc : s.connections.lookup id = some c) (hp : c.phase = .connected) :
    Informed (s.setConnection id { c with phase := .select [], cursor := s.broadcasts.length }) id
      { c with phase := .select [], cursor := s.broadcasts.length }
      (admission id (trace ++ [.subscribe id])) := by
  have hpatient := attentive_patient hr
  have hvouched := run_vouched hpatient
  have hhold := admissionLaw_kept.run hpatient id c hc
  rw [Law.Holds,hp] at hhold
  obtain ⟨_,houtside⟩ := hhold
  rw [admission_own rfl]
  have hout : (admission id trace).accepted id = false := houtside.accepted
  have hscan : (admission id trace).scan = none := houtside.scan
  refine ⟨Nat.le_refl _,?_,?_,?_,fun m hm => by cases hm⟩
  · intro m hm
    change m ∈ s.broadcasts.drop s.broadcasts.length at hm
    rw [List.drop_length] at hm
    cases hm
  · intro _ v hne hv
    change Learns _ v (admission id trace).scan
    rw [hscan]
    obtain ⟨hintroduced,c₂,hc₂,halive⟩ := relies_end (Nat.le_refl _) hv
    rw [ManagementServer.setConnection_lookup,if_neg hne] at hc₂
    obtain ⟨u,hu⟩ := hstep.1.2 v c₂ hc₂ halive hintroduced
    have hfits := hvouched.record v c₂ hc₂ halive
    rw [hu] at hfits
    exact ⟨c₂.address,u,hu,hfits.1,hfits.2 (introduced_accepted hvouched hintroduced)⟩
  · intro haccepted
    have haccepted' : (admission id trace).accepted id = true := haccepted
    rw [hout] at haccepted'
    cases haccepted'

/-- A message is received. -/
theorem informed_recv (hr : Run (Guarded attentive Step) ManagementServer.new trace s) {b : Bytes}
    {m : BroadcastMessage} {phase : Phase} (hguard : attentive s (.recv id (.ok m)))
    (hstep : Step s (.recv id (.ok m)) (s.setConnection id { c with phase := phase, cursor := c.cursor + 1 }))
    (hc : s.connections.lookup id = some c) (hp : c.phase = .select b)
    (hm : s.broadcasts[c.cursor]? = some m) (h : Informed s id c (admission id trace)) :
    Informed (s.setConnection id { c with phase := phase, cursor := c.cursor + 1 }) id
      { c with phase := phase, cursor := c.cursor + 1 } (admission id (trace ++ [.recv id (.ok m)])) := by
  have hpatient := attentive_patient hr
  have hhold := admissionLaw_kept.run hpatient id c hc
  rw [Law.Holds,hp] at hhold
  obtain ⟨hlt,hget⟩ := List.getElem?_eq_some_iff.mp hm
  have hmem : m ∈ s.broadcasts.drop c.cursor := by
    rw [List.drop_eq_getElem_cons hlt,hget]
    exact List.mem_cons_self
  -- before the login nothing is received that is meant for the client
  have haccepted : m.shouldSendTo c.address = true → (admission id trace).accepted id = true := by
    intro hsend
    rcases hhold.2 with houtside | hinside
    · obtain ⟨u,hu,_,hunnamed⟩ := houtside.record
      rw [hguard.1.2 c hc ⟨u,hu,hunnamed⟩] at hsend
      cases hsend
    · exact hinside.accepted
  have hsends : ∀ v, v ≠ id → m.names v = true → m.shouldSendTo c.address = true := by
    intro v hne hnames
    refine bne_iff_ne.mpr fun hexclude => ?_
    exact hne (names_unique hnames (h.own m hmem hexclude))
  rw [admission_own rfl]
  refine informed_branch h (idle_free hhold.2) rfl rfl rfl (Nat.le_succ _) hlt (fun v hne hv => ?_)
    (fun m' hm' hsend => ?_)
  · have hv' := step_relies hpatient ⟨hguard.1,hstep⟩ (show c.cursor + 1 ≤ _ from hlt) hv
    cases hbrings : m.brings v with
    | false => exact .inl (relies_next hm hbrings hv')
    | true =>
      have hsend := hsends v hne (brings_names hbrings)
      exact .inr ⟨haccepted hsend,m,rfl,hsend,hbrings⟩
  · cases hm'
    refine ⟨haccepted hsend,fun v hne hnames => ?_⟩
    cases hbrings : m.brings v with
    | false => exact .inl (relies_head hm hnames hbrings)
    | true => exact .inr rfl

/-- What is held after an operation has been held before. -/
theorem exec_held {o : Op} {r : o.Res} {m : BroadcastMessage}
    (hm : ((admission id trace).own id (.exec id o r)).held = some m) :
    (admission id trace).held = some m := by
  cases o with
  | write data =>
    cases r with
    | true => cases hm
    | false => exact hm
  | _ => cases hm

section Exec
variable {o : Op} {r : o.Res} (hr : Run (Guarded attentive Step) ManagementServer.new trace s)
  (hstep : Guarded attentive Step s (.exec id o r) s') (hans : s.Answers o r)
  (hproper : Proper id c.address (Affairs.view trace s id c) o)
include hr hstep hproper

/-- Before the login no operation takes a record away. -/
theorem exec_stands (hout : (admission id trace).accepted id = false) {v : UInt64} {a : SocketAddr}
    (h : Stands s v a) : Stands s' v a := by
  rcases step_stands (attentive_patient hr) ⟨hstep.1.1,hstep.2⟩ h with hdrops | hstands
  · cases o with
    | remove a' =>
      have haccepted : (admission id trace).accepted id = true := hproper.allowed.1
      rw [hout] at haccepted
      cases haccepted
    | _ => cases hdrops
  · exact hstands

include hans

/-- Before the login the iteration goes on without missing anybody. -/
theorem exec_learns (hout : (admission id trace).accepted id = false) {v : UInt64}
    (h : Learns s v (admission id trace).scan) :
    Learns s' v ((admission id trace).own id (.exec id o r)).scan := by
  have hstays : ∀ a, Stands s v a → Stands s' v a := fun _ => exec_stands hr hstep hproper hout
  have hallowed := hproper.allowed
  cases o with
  | keys =>
    have hnone : (admission id trace).scan = none := by
      rcases hallowed with haccepted | hnone
      · have haccepted' : (admission id trace).accepted id = true := haccepted
        rw [hout] at haccepted'
        cases haccepted'
      · exact hnone
    rw [hnone] at h
    obtain ⟨a,hstands⟩ := h
    have hfound := hstands
    obtain ⟨u,hu,_⟩ := hfound
    exact .inr ⟨a,hans.2 a u hu,hstays a hstands⟩
  | read a =>
    obtain ⟨scan,hscan,hnext⟩ := hallowed
    have hscan' : (admission id trace).scan = some scan := hscan
    rw [hscan'] at h
    change Learns s' v ((admission id trace).scan.map _)
    rw [hscan']
    obtain ⟨hlt,hget⟩ := List.getElem?_eq_some_iff.mp hnext
    rcases h with ⟨u,hmem,hseen⟩ | ⟨a',hmem,ha'⟩
    · exact .inl ⟨u,List.mem_append_left _ hmem,hseen⟩
    · rw [List.drop_eq_getElem_cons hlt,hget] at hmem
      rcases List.mem_cons.mp hmem with rfl | hmem
      · -- this is the record that is being visited
        obtain ⟨u,hu,huid,hunamed⟩ := ha'
        have hrecord : r = some u := hans.trans hu
        refine .inl ⟨u,?_,huid,hunamed⟩
        rw [hrecord]
        exact List.mem_append_right _ List.mem_cons_self
      · refine .inr ⟨a',?_,hstays a' ha'⟩
        change a' ∈ scan.addresses.drop (scan.records ++ [r]).length
        rw [List.length_append]
        exact hmem
  | write data => cases r <;> exact learns_stays h fun _ => hstays
  | _ => exact learns_stays h fun _ => hstays

omit hr hstep hans

/-- The login response lists whom the iteration has seen. -/
theorem exec_lists (hout : (admission id trace).accepted id = false)
    (haccepted : ((admission id trace).own id (.exec id o r)).accepted id = true) {v : UInt64}
    (h : Learns s v (admission id trace).scan) :
    ((admission id trace).own id (.exec id o r)).told.any (tells v) = true := by
  have hsame : ((admission id trace).own id (.exec id o r)).told = (admission id trace).told →
      ((admission id trace).own id (.exec id o r)).told.any (tells v) = true := by
    intro htold
    rw [Admission.accepted,htold] at haccepted
    rw [Admission.accepted,haccepted] at hout
    cases hout
  cases o with
  | write data =>
    cases r with
    | false => exact hsame rfl
    | true =>
      rcases accepting_write hproper.allowed haccepted with
        hbefore | ⟨requestId,token,_,hpacket,_,scan,hscan,hcomplete,rfl⟩
      · have hbefore' : (admission id trace).accepted id = true := hbefore
        rw [hout] at hbefore'
        cases hbefore'
      · have hscan' : (admission id trace).scan = some scan := hscan
        rw [hscan'] at h
        have hlisted := complete_lists hcomplete h
        refine List.any_eq_true.mpr ⟨.loginResponse requestId id token _,?_,
          Bool.or_eq_true_iff.mpr (.inr hlisted)⟩
        change _ ∈ (admission id trace).told ++ (packetOf data).toList
        rw [hpacket]
        exact List.mem_append_right _ List.mem_cons_self
  | _ => exact hsame rfl

/-- What was about to be learnt is written next. -/
theorem exec_forwards {v : UInt64} (h : (admission id trace).told.any (tells v) = true ∨
      ∃ m, (admission id trace).held = some m ∧ m.shouldSendTo c.address = true ∧ m.brings v = true) :
    ((admission id trace).own id (.exec id o r)).told.any (tells v) = true ∨
      ∃ m, ((admission id trace).own id (.exec id o r)).held = some m ∧
        m.shouldSendTo c.address = true ∧ m.brings v = true := by
  rcases h with htold | ⟨m,hm,hsend,hbrings⟩
  · exact .inl (told_mono ((admission id trace).own_exec id o r).1 htold)
  · obtain rfl : o = .write m.data := hproper.forwards m hm hsend
    cases r with
    | false => exact .inr ⟨m,hm,hsend,hbrings⟩
    | true =>
      obtain ⟨packet,hpacket,hintroduces⟩ := (Option.any_eq_true _ _).mp hbrings
      refine .inl (List.any_eq_true.mpr ⟨packet,?_,?_⟩)
      · change packet ∈ (admission id trace).told ++ (packetOf m.data).toList
        rw [hpacket]
        exact List.mem_append_right _ List.mem_cons_self
      · cases packet with
        | userJoinedServer participant => exact hintroduces
        | _ => cases hintroduces

include hr hstep hans

/-- One operation keeps a client informed. -/
theorem informed_exec (hc : s.connections.lookup id = some c) (halive : c.phase.Alive) {c' : Connection}
    (haddr : c'.address = c.address) (hcursor : c'.cursor = c.cursor)
    (h : Informed s id c (admission id trace)) :
    Informed s' id c' (admission id (trace ++ [.exec id o r])) := by
  have hpatient := attentive_patient hr
  have hstep' : Guarded patient Step s (.exec id o r) s' := ⟨hstep.1.1,hstep.2⟩
  have hrelies : ∀ v, Relies s' c'.cursor v → Relies s c.cursor v := by
    intro v hv
    rw [hcursor] at hv
    exact step_relies hpatient hstep' h.place hv
  rw [admission_own rfl]
  refine ⟨?_,?_,?_,?_,?_⟩
  · rw [hcursor,step_broadcasts hstep.2,List.length_append]
    exact Nat.le_add_right_of_le h.place
  · rw [hcursor,haddr]
    exact step_own hpatient hstep' hc halive h.place h.own
  · intro hout v hne hv
    have hout' : (admission id trace).accepted id = false := by
      by_contra haccepted
      have htold := ((admission id trace).own_exec id o r).1
      rw [Admission.accepted_mono htold (Bool.eq_true_of_not_eq_false haccepted)] at hout
      cases hout
    exact exec_learns hr hstep hans hproper hout' (h.before hout' v hne (hrelies v hv))
  · intro haccepted v hne hv
    rw [haddr]
    cases hbefore : (admission id trace).accepted id with
    | true => exact exec_forwards hproper (h.after hbefore v hne (hrelies v hv))
    | false => exact .inl (exec_lists hproper hbefore haccepted (h.before hbefore v hne (hrelies v hv)))
  · intro m hm hsend v hne hnames
    rw [haddr] at hsend
    exact (h.holds m (exec_held hm) hsend v hne hnames).imp_left
      (told_mono ((admission id trace).own_exec id o r).1)

end Exec
/-- Messages that introduce nobody are lost. -/
theorem informed_lagged (hr : Run (Guarded attentive Step) ManagementServer.new trace s) {b : Bytes}
    {c' : Connection} (hstep : Guarded attentive Step s (.recv id .lagged) s')
    (hc : s.connections.lookup id = some c) (hp : c.phase = .select b) (husers : s'.users = s.users)
    (hbroadcasts : s'.broadcasts = s.broadcasts) (haddr : c'.address = c.address)
    (hcursor : c'.cursor = s.broadcasts.length - broadcastChannelCapacity)
    (hring : c.cursor + broadcastChannelCapacity < s.broadcasts.length)
    (h : Informed s id c (admission id trace)) :
    Informed s' id c' (admission id (trace ++ [.recv id .lagged])) := by
  have hhold := admissionLaw_kept.run (attentive_patient hr) id c hc
  rw [Law.Holds,hp] at hhold
  have hskipped := hstep.1.2 c hc
  rw [← hcursor] at hskipped
  have hlen : c'.cursor ≤ s.broadcasts.length := by omega
  have hle : c.cursor ≤ c'.cursor := by omega
  rw [admission_own rfl]
  refine informed_branch h (idle_free hhold.2) husers hbroadcasts haddr hle hlen
    (fun v hne hv => .inl ?_) (fun m hm => by cases hm)
  exact relies_skip hle hlen (hskipped v hne)
    (step_relies (attentive_patient hr) ⟨hstep.1.1,hstep.2⟩ hlen hv)

/-- The task that moves keeps its client informed. -/
theorem informed_own (hr : Run (Guarded attentive Step) ManagementServer.new trace s)
    (hstep : Guarded attentive Step s label s') {c' : Connection} (hactor : label.actor = some id)
    (hc : s.connections.lookup id = some c) (hc' : s'.connections.lookup id = some c')
    (hlistening : c'.phase.Listening)
    (h : c.phase.Listening → Informed s id c (admission id trace)) :
    Informed s' id c' (admission id (trace ++ [label])) := by
  have hpatient := attentive_patient hr
  have hhold := admissionLaw_kept.run hpatient id c hc
  obtain ⟨hguard,hstep⟩ := hstep
  cases hstep with
  | accept => cases hactor
  | connect hl hp =>
    cases hactor
    cases (ManagementServer.setConnection_own _ _ _).symm.trans hc'
    exact hlistening.elim
  | subscribe hl hp =>
    cases hactor
    cases hc.symm.trans hl
    cases (ManagementServer.setConnection_own _ _ _).symm.trans hc'
    exact informed_subscribe hr ⟨hguard,.subscribe hl hp⟩ hc hp
  | @read _ c₀ b r hl hp hlen =>
    cases hactor
    cases hc.symm.trans hl
    cases (ManagementServer.setConnection_own _ _ _).symm.trans hc'
    rw [Law.Holds,hp] at hhold
    have hinformed := h (by rw [hp]; trivial)
    rw [admission_own rfl]
    refine informed_branch hinformed (idle_free hhold.2) rfl rfl rfl (Nat.le_refl _) hinformed.place
      (fun v _ hv => .inl ?_) (fun m hm => by cases hm)
    exact step_relies hpatient ⟨hguard.1,.read hl hp hlen⟩ hinformed.place hv
  | recv hl hp hm hring =>
    cases hactor
    cases hc.symm.trans hl
    cases (ManagementServer.setConnection_own _ _ _).symm.trans hc'
    exact informed_recv hr hguard (.recv hl hp hm hring) hc hp hm (h (by rw [hp]; trivial))
  | lagged hl hp hring =>
    cases hactor
    cases hc.symm.trans hl
    cases (ManagementServer.setConnection_own _ _ _).symm.trans hc'
    exact informed_lagged hr ⟨hguard,.lagged hl hp hring⟩ hc hp rfl rfl rfl rfl hring
      (h (by rw [hp]; trivial))
  | closed hl hp =>
    cases hactor
    cases (ManagementServer.setConnection_own _ _ _).symm.trans hc'
    exact hlistening.elim
  | @exec _ c₀ o k r b hl hp hans hb =>
    cases hactor
    cases hc.symm.trans hl
    cases (ManagementServer.setConnection_own _ _ _).symm.trans hc'
    have hstep : Guarded attentive Step s (.exec id o r) _ := ⟨hguard,.exec hl hp hans hb⟩
    obtain ⟨c₁,_,hc₁,_,hproper,_⟩ := admissionLaw_kept.run_effect hpatient ⟨hstep.1.1,hstep.2⟩
    cases hc.symm.trans hc₁
    refine informed_exec hr hstep hans hproper hc (by rw [hp]; trivial) rfl rfl (h ?_)
    rw [hp]
    rintro packet rfl
    have hencode : packet.encode = some r := hans
    rw [hencode]
    rfl
  | panic hl hp hnone =>
    cases hactor
    cases (ManagementServer.setConnection_own _ _ _).symm.trans hc'
    exact hlistening.elim
  | disconnect hl hp =>
    cases hactor
    cases (ManagementServer.setConnection_own _ _ _).symm.trans hc'
    exact hlistening.elim

/-- In every attentive run every client stays informed. -/
theorem run_informed (hr : Run (Guarded attentive Step) ManagementServer.new trace s) :
    ∀ id c, s.connections.lookup id = some c → c.phase.Listening →
      Informed s id c (admission id trace) := by
  induction hr with
  | refl =>
    intro id c hc
    simp [ManagementServer.new] at hc
  | @snoc trace s label s' hr hstep ih =>
    intro id c' hc' hlistening
    by_cases hactor : label.actor = some id
    · obtain ⟨c,hc⟩ := step_actor hstep.2 hactor
      exact informed_own hr hstep hactor hc hc' hlistening (ih id c hc)
    · cases hc : s.connections.lookup id with
      | none =>
        obtain ⟨address,token,rfl,rfl,rfl,rfl⟩ := step_appears hstep.2 hactor hc hc'
        exact hlistening.elim
      | some c =>
        cases (step_other hr hstep.2 hactor hc).symm.trans hc'
        rw [admission_other hactor]
        exact informed_other hr hstep hc hlistening (ih id c' hc hlistening)

end Informed

/-! ## What each client is told -/

/-- A packet in its place behind these: an event comes after the accepted login, and the
user that it is about has been announced. -/
def InPlace (id : UInt64) (before : List Packet) (packet : Packet) : Prop :=
  packet.isEvent = true → before.any (accepts id) = true ∧
    ∀ v, named packet = some v → (before ++ [packet]).any (tells v) = true

/-- The login gates participation: until it has been accepted nobody notices what a client
does, and every packet that a client is told is in its place. -/
structure Gated (step : ManagementServer → Label → ManagementServer → Prop) (trace : Trace)
    (s : ManagementServer) : Prop where
  unnoticed : ∀ id label s', step s label s' → label.actor = some id →
    (admission id trace).accepted id = false → Unnoticed s label s'
  told : ∀ id before packet after, (admission id trace).told = before ++ packet :: after →
    InPlace id before packet

/-- Only what is written without failure is told. -/
theorem admission_tells (id : UInt64) (trace : Trace) (label : Label) :
    (admission id (trace ++ [label])).told = (admission id trace).told ∨
      ∃ data, label = .exec id (.write data) true ∧
        (admission id (trace ++ [label])).told = (admission id trace).told ++ (packetOf data).toList := by
  by_cases hactor : label.actor = some id
  · rw [admission_own hactor]
    cases label with
    | exec id' o r =>
      cases hactor
      cases o with
      | write data =>
        cases r with
        | false => exact .inl rfl
        | true => exact .inr ⟨data,rfl,rfl⟩
      | _ => exact .inl rfl
    | recv id' r => cases r <;> exact .inl rfl
    | _ => exact .inl rfl
  · rw [admission_other hactor]
    exact .inl rfl

/-- What is written next is in its place behind all that has been told. -/
theorem write_inPlace {trace : Trace} {s s' : ManagementServer} {id : UInt64} {data : Bytes}
    {packet : Packet} (hr : Run (Guarded attentive Step) ManagementServer.new trace s)
    (hstep : Guarded attentive Step s (.exec id (.write data) true) s') (hdata : packetOf data = some packet) :
    InPlace id (admission id trace).told packet := by
  intro hevent
  have hpatient := attentive_patient hr
  obtain ⟨c,_,hc,_,hproper,_⟩ := admissionLaw_kept.run_effect hpatient ⟨hstep.1.1,hstep.2⟩
  obtain ⟨packet',hpacket',hforwards,_⟩ := hproper.allowed
  cases hdata.symm.trans (packetOf_encode hpacket')
  obtain ⟨hin,m,hm,rfl,hsend⟩ := hforwards hevent
  have haccepted : (admission id trace).told.any (accepts id) = true := hin
  have hlistening : c.phase.Listening := by
    cases hstep.2 with
    | exec hl hp =>
      cases hc.symm.trans hl
      rw [hp]
      exact fun _ heq => by cases heq
  have hinformed := run_informed hr id c hc hlistening
  refine ⟨haccepted,fun v hnamed => ?_⟩
  rw [List.any_append]
  by_cases hv : v = id
  · -- its own id is in the response that has accepted its login
    obtain ⟨response,hmem,haccepts⟩ := List.any_eq_true.mp haccepted
    have htells : tells v response = true := by
      rw [hv]
      cases response with
      | loginResponse => exact Bool.or_eq_true_iff.mpr (.inl haccepts)
      | _ => cases haccepts
    rw [List.any_eq_true.mpr ⟨response,hmem,htells⟩,Bool.true_or]
  · have hnames : m.names v = true := by
      rw [names_encode hpacket',hnamed]
      exact beq_self_eq_true _
    rcases hinformed.holds m hm hsend v hv hnames with htold | hbrings
    · have htold' : (admission id trace).told.any (tells v) = true := htold
      rw [htold',Bool.true_or]
    · rw [brings_encode hpacket'] at hbrings
      have htells : tells v packet = true := by
        cases packet with
        | userJoinedServer participant => exact hbrings
        | _ => cases hbrings
      rw [List.any_cons,htells,Bool.true_or,Bool.or_true]

theorem run_told {trace : Trace} {s : ManagementServer}
    (hr : Run (Guarded attentive Step) ManagementServer.new trace s) (id : UInt64) :
    ∀ before packet after, (admission id trace).told = before ++ packet :: after →
      InPlace id before packet := by
  induction hr with
  | refl =>
    intro before packet after htold
    exact (List.append_ne_nil_of_right_ne_nil before (List.cons_ne_nil packet after) htold.symm).elim
  | @snoc trace s label s' hr hstep ih =>
    intro before packet after htold
    rcases admission_tells id trace label with hsame | ⟨data,rfl,hmore⟩
    · rw [hsame] at htold
      exact ih before packet after htold
    · rw [hmore] at htold
      cases hdata : packetOf data with
      | none =>
        rw [hdata,Option.toList_none,List.append_nil] at htold
        exact ih before packet after htold
      | some q =>
        rw [hdata,Option.toList_some] at htold
        rcases List.eq_nil_or_concat after with rfl | ⟨after',q',rfl⟩
        · obtain ⟨hbefore,hq⟩ := List.append_inj' htold rfl
          cases hq
          rw [← hbefore]
          exact write_inPlace hr hstep hdata
        · rw [List.concat_eq_append,← List.cons_append,← List.append_assoc] at htold
          exact ih before packet after' (List.append_inj' htold rfl).1

/-- In every attentive run the login gates participation. -/
theorem login_gates {trace : Trace} {s : ManagementServer}
    (hr : Run (Guarded attentive Step) ManagementServer.new trace s) :
    Gated (Guarded attentive Step) trace s :=
  ⟨fun _ _ _ hstep hactor hout =>
    step_unnoticed (attentive_patient hr) ⟨hstep.1.1,hstep.2⟩ hactor hout,run_told hr⟩

section Witness
variable {s : ManagementServer} {id : UInt64} {c : Connection}

theorem attentive_calm (id : UInt64) : Calmly (Guarded attentive Step) id := by
  intro s s' o r hstep ho
  refine ⟨⟨⟨⟨liveApart_guard (by simp),trivial⟩,?_⟩,?_⟩,hstep⟩
  · cases o with
    | write data => exact fun _ => ho
    | _ => trivial
  · cases o with
    | remove a => exact ho.elim
    | _ => trivial

/-- A packet that arrives alone is a login, or comes from somebody with a name. -/
theorem attentive_read {packet : Packet} {data : Bytes} (hp : c.phase = .select [])
    (hdata : packet.encode = some data) (hmute : ∀ userId isMuted, packet ≠ .userMuteState userId isMuted)
    (hfirst : logsIn packet = true ∨ ∃ u, s.users.lookup c.address = some u ∧ u.username.isSome = true) :
    attentive (s.setConnection id c) (.read id (.ok data)) := by
  have hown : ∀ {c'}, (s.setConnection id c).connections.lookup id = some c' → c' = c := by
    intro c' hc'
    exact Option.some.inj (hc'.symm.trans (s.setConnection_own id c))
  refine ⟨⟨⟨liveApart_guard (by simp),?_⟩,?_⟩,trivial⟩
  · intro c' b u hc' hp' _ userId isMuted hmem
    cases hown hc'
    cases hp.symm.trans hp'
    rw [List.nil_append,split_single hdata,List.mem_singleton] at hmem
    exact (hmute userId isMuted hmem.symm).elim
  · rintro c' b hc' hp' ⟨u,hu,hunnamed⟩
    cases hown hc'
    cases hp.symm.trans hp'
    have hlogin : logsIn packet = true := by
      rcases hfirst with hlogin | ⟨u',hu',hnamed⟩
      · exact hlogin
      · cases (show s.users.lookup c.address = some u from hu).symm.trans hu'
        rw [hunnamed] at hnamed
        cases hnamed
    cases data with
    | nil =>
      have hlen := Packet.encode_length hdata
      rw [List.length_nil] at hlen
      omega
    | cons byte bytes =>
      refine ⟨byte,bytes,rfl,?_⟩
      rw [List.nil_append,split_single hdata]
      exact .inl hlogin

theorem attentive_recv {m : BroadcastMessage} {u : User} (hu : s.users.lookup c.address = some u)
    (hnamed : u.username.isSome = true) : attentive (s.setConnection id c) (.recv id (.ok m)) := by
  refine ⟨⟨⟨liveApart_guard (by simp),trivial⟩,?_⟩,trivial⟩
  rintro c' hc' ⟨u',hu',hunnamed⟩
  cases hc'.symm.trans (s.setConnection_own id c)
  cases hu.symm.trans (show s.users.lookup c.address = some u' from hu')
  rw [hunnamed] at hnamed
  cases hnamed

theorem attentive_solo : Run (Guarded attentive Step) .new
    [.accept (.v4 1 1) 11,.connect 1,.subscribe 1] (solo.setConnection 1 soloist) := by
  refine run_solo_steps ⟨⟨⟨?_,trivial⟩,trivial⟩,?_⟩ ⟨⟨⟨trivial,trivial⟩,trivial⟩,trivial⟩
    ⟨⟨⟨trivial,trivial⟩,trivial⟩,?_⟩
  · intro id c hc
    simp [ManagementServer.new] at hc
  · intro u hu
    simp [ManagementServer.new] at hu
  · rintro v c _ _ ⟨m,hm,_⟩
    cases hm

/-- Nobody but user 1 has a record, whatever becomes of it. -/
theorem solo_addresses {update : User → User} {a : SocketAddr} {u : User}
    (h : (solo.users.modify (.v4 1 1) update).lookup a = some u) : a ∈ [SocketAddr.v4 1 1] := by
  rw [Table.lookup_modify] at h
  split at h
  · rename_i ha
    exact List.mem_singleton.mpr ha
  · have hu : (ManagementServer.new.accept (.v4 1 1) 11).users.lookup a = some u := h
    rw [ManagementServer.accept_users] at hu
    split at hu
    · rename_i ha
      exact List.mem_singleton.mpr ha
    · simp [ManagementServer.new] at hu

end Witness

/-- User 1 logs in as Bob, sends a chat message and is told of it. -/
theorem login_gates_bob : ∃ trace s, Run (Guarded attentive Step) ManagementServer.new trace s ∧
    (admission 1 trace).told = [.loginResponse 7 1 11 [⟨1,"bob",false,false⟩],
      .chatMessageResponse 7 true,.userSentMessage 1 0 ""] ∧ Gated (Guarded attentive Step) trace s := by
  have hlogin : (Packet.loginRequest 7 "bob").encode =
      some [1,0,13,0,0,0,0,0,0,0,7,0,3,98,111,98] := by decide
  obtain ⟨_,answer,announcement,hchat,hlen,hanswer,hannouncement⟩ := encode_chat
  obtain ⟨response,hresponse⟩ :=
    (Packet.encode_isSome_iff (.loginResponse 7 1 11 [⟨1,"bob",false,false⟩])).mpr (by decide)
  obtain ⟨joined,hjoined⟩ :=
    (Packet.encode_isSome_iff (.userJoinedServer ⟨1,"bob",false,false⟩)).mpr (by decide)
  have hin := run_login (attentive_calm 1) attentive_solo 7 "bob" [.v4 1 1] rfl hlogin (by decide) (by decide)
    rfl rfl (by decide) (fun _ _ => solo_addresses) hresponse hjoined
    fun hstep => ⟨attentive_read rfl hlogin (by simp) (.inl rfl),hstep⟩
  -- its own introduction comes first, and is not for it
  have hskip := hin.snoc (show Guarded attentive Step _ (.recv 1 (.ok ⟨some (.v4 1 1),joined⟩)) _ from
    ⟨attentive_recv rfl rfl,.recv (ManagementServer.setConnection_own _ _ _) rfl rfl
      (Nat.le_of_ble_eq_true rfl)⟩)
  rw [ManagementServer.setConnection_twice] at hskip
  obtain ⟨c,hsaid,hp,haddr,hcursor⟩ := run_chat (attentive_calm 1) hskip rfl rfl hchat hlen hanswer
    hannouncement fun hstep => ⟨attentive_read rfl hchat (by simp) (.inr ⟨_,rfl,rfl⟩),hstep⟩
  obtain ⟨_,hrun,_⟩ := run_hears (attentive_calm 1) hsaid (m := ⟨none,announcement⟩) hp
    (by rw [hcursor]; rfl) (by rw [hcursor]; exact Nat.le_of_ble_eq_true rfl) rfl
    fun hstep => ⟨attentive_recv (by rw [haddr]; rfl) rfl,hstep⟩
  refine ⟨_,_,hrun,?_,login_gates hrun⟩
  rw [admission]
  simp only [List.foldl_append]
  change (packetOf response).toList ++ (packetOf answer).toList ++ (packetOf announcement).toList = _
  rw [packetOf_encode hresponse,packetOf_encode hanswer,packetOf_encode hannouncement]
  rfl

/-- Without a login user 1 sends a chat message and is told of it, and of user 1, before
anything has announced it. -/
theorem login_gates_chat_first : ¬ ∀ trace s, Run Step ManagementServer.new trace s → Gated Step trace s := by
  intro hgated
  obtain ⟨data,response,announcement,hdata,hlen,hresponse,hannouncement⟩ := encode_chat
  have hsolo : Run (Guarded liveApart.guard Step) .new
      [.accept (.v4 1 1) 11,.connect 1,.subscribe 1] (solo.setConnection 1 soloist) :=
    run_solo fun _ _ h _ _ => h
  have hcalm : Calmly Step 1 := fun hstep _ => hstep
  obtain ⟨c,hchat,hp,haddr,hcursor⟩ := run_chat hcalm (hsolo.mono fun _ _ _ h => h.2) rfl rfl hdata
    hlen hresponse hannouncement fun hstep => hstep
  have hm : (solo.perform (.broadcast ⟨none,announcement⟩)).broadcasts[c.cursor]? =
      some ⟨none,announcement⟩ := by
    rw [hcursor]
    rfl
  obtain ⟨_,hrun,_⟩ := run_hears hcalm hchat hp hm (by rw [hcursor]; exact Nat.le_of_ble_eq_true rfl) rfl
    fun hstep => hstep
  have htold := (hgated _ _ hrun).told 1 [.chatMessageResponse 7 true] (.userSentMessage 1 0 "") [] (by
    rw [admission,List.foldl_append,List.foldl_append]
    change (packetOf response).toList ++ (packetOf announcement).toList = _
    rw [packetOf_encode hresponse,packetOf_encode hannouncement]
    rfl)
  obtain ⟨haccepted,_⟩ := htold rfl
  cases haccepted

end VoiceApp.Management
