import VoiceApp.Management.Lifecycle

/-! # Laws that every task keeps

A law says what the task of a connection relies on and keeps to, in terms of its own
affairs, which are read off the run. When each kind of step respects a law, every task
keeps it in every reachable state, whatever the others do in between.
-/
namespace VoiceApp.Management
open Protocol Server

/-- The task that takes the step; the accept loop is none of them. -/
def Label.actor : Label → Option UInt64
  | .accept .. => none
  | .connect id => some id
  | .subscribe id => some id
  | .read id _ => some id
  | .recv id _ => some id
  | .exec id .. => some id
  | .panic id => some id
  | .disconnect id => some id

theorem setConnection_other {s : ManagementServer} {id id' : UInt64} {c c' : Connection}
    (hne : id' ≠ id) (hc : s.connections.lookup id = some c) :
    (s.setConnection id' c').connections.lookup id = some c := by
  rw [ManagementServer.setConnection_lookup,if_neg (Ne.symm hne),hc]

/-- Ids below the counter have been dealt out, each to the record it is in. -/
theorem run_ids {guard : ManagementServer → Label → Prop} {trace : Trace} {s : ManagementServer}
    (h : Run (Guarded guard Step) ManagementServer.new trace s) :
    ∀ id c, s.connections.lookup id = some c → c.user.id = id ∧ id.toNat < s.nextUserId.toNat := by
  have hset : ∀ (s : ManagementServer) (id : UInt64) (c c' : Connection),
      (∀ id c, s.connections.lookup id = some c → c.user.id = id ∧ id.toNat < s.nextUserId.toNat) →
      s.connections.lookup id = some c → c'.user = c.user → ∀ id' c₂,
        (s.setConnection id c').connections.lookup id' = some c₂ →
          c₂.user.id = id' ∧ id'.toNat < s.nextUserId.toNat := by
    intro s id c c' hall hc huser id' c₂ h₂
    rw [ManagementServer.setConnection_lookup] at h₂
    split at h₂
    · rename_i hid
      cases h₂
      rw [hid,huser]
      exact hall id c hc
    · exact hall id' c₂ h₂
  refine h.preserves (P := fun s => ∀ id c, s.connections.lookup id = some c →
    c.user.id = id ∧ id.toNat < s.nextUserId.toNat) ?_ ?_
  · rintro s label s' hall ⟨_,hstep⟩
    cases hstep with
    | @accept address token hid =>
      intro id c hc
      change c.user.id = id ∧ id.toNat < (s.nextUserId + 1).toNat
      rw [s.accept_connections] at hc
      rw [BigEndian.toNat_succ hid]
      split at hc
      · rename_i hnew
        cases hc
        rw [hnew]
        exact ⟨rfl,Nat.lt_succ_self _⟩
      · obtain ⟨huser,hlt⟩ := hall id c hc
        exact ⟨huser,Nat.lt_succ_of_lt hlt⟩
    | connect hc _ => exact hset s _ _ _ hall hc rfl
    | subscribe hc _ => exact hset s _ _ _ hall hc rfl
    | read hc _ _ => exact hset s _ _ _ hall hc rfl
    | recv hc _ _ _ => exact hset s _ _ _ hall hc rfl
    | lagged hc _ _ => exact hset s _ _ _ hall hc rfl
    | closed hc _ => exact hset s _ _ _ hall hc rfl
    | @exec id c o k r b hc hp hr hb =>
      intro id' c₂ h₂
      have hperformed := hset (s.perform o) id c { c with
        phase := .ofProgram (k r), written := c.written ++ b }
      exact hperformed (by simpa using hall) (by simpa using hc) rfl id' c₂ h₂
    | panic hc _ _ => exact hset s _ _ _ hall hc rfl
    | disconnect hc _ => exact hset s _ _ _ hall hc rfl
  · intro id c hc
    simp [ManagementServer.new] at hc

/-- The next id has not been dealt out. -/
theorem run_fresh {guard : ManagementServer → Label → Prop} {trace : Trace} {s : ManagementServer}
    (h : Run (Guarded guard Step) ManagementServer.new trace s) :
    s.connections.lookup s.nextUserId = none := by
  by_contra hsome
  obtain ⟨c,hc⟩ := Option.ne_none_iff_exists'.mp hsome
  have hlt := (run_ids h _ c hc).2
  omega

/-- A step of one task is no step of another. -/
theorem step_other {guard : ManagementServer → Label → Prop} {trace : Trace}
    {s s' : ManagementServer} {label : Label} {id : UInt64} {c : Connection}
    (hr : Run (Guarded guard Step) ManagementServer.new trace s) (hstep : Step s label s')
    (hne : label.actor ≠ some id) (hc : s.connections.lookup id = some c) :
    s'.connections.lookup id = some c := by
  have hid : ∀ {id'}, some id' ≠ some id → id' ≠ id := fun h heq => h (by rw [heq])
  cases hstep with
  | accept hlt =>
    have hold := (run_ids hr id c hc).2
    rw [s.accept_connections,if_neg (fun heq => by rw [heq] at hold; omega),hc]
  | connect => exact setConnection_other (hid hne) hc
  | subscribe => exact setConnection_other (hid hne) hc
  | read => exact setConnection_other (hid hne) hc
  | recv => exact setConnection_other (hid hne) hc
  | lagged => exact setConnection_other (hid hne) hc
  | closed => exact setConnection_other (hid hne) hc
  | exec => exact setConnection_other (hid hne) (by simpa using hc)
  | panic => exact setConnection_other (hid hne) hc
  | disconnect => exact setConnection_other (hid hne) hc

/-- Only a task that is there moves. -/
theorem step_actor {s s' : ManagementServer} {label : Label} {id : UInt64} (hstep : Step s label s')
    (hactor : label.actor = some id) : ∃ c, s.connections.lookup id = some c := by
  cases hstep with
  | accept => cases hactor
  | connect hc => cases hactor; exact ⟨_,hc⟩
  | subscribe hc => cases hactor; exact ⟨_,hc⟩
  | read hc => cases hactor; exact ⟨_,hc⟩
  | recv hc => cases hactor; exact ⟨_,hc⟩
  | lagged hc => cases hactor; exact ⟨_,hc⟩
  | closed hc => cases hactor; exact ⟨_,hc⟩
  | exec hc => cases hactor; exact ⟨_,hc⟩
  | panic hc => cases hactor; exact ⟨_,hc⟩
  | disconnect hc => cases hactor; exact ⟨_,hc⟩

/-- A task that was not there has just been accepted. -/
theorem step_appears {s s' : ManagementServer} {label : Label} {id : UInt64} {c : Connection}
    (hstep : Step s label s') (hactor : label.actor ≠ some id)
    (hnone : s.connections.lookup id = none) (hc : s'.connections.lookup id = some c) :
    ∃ address token, label = .accept address token ∧ s' = s.accept address token ∧
      id = s.nextUserId ∧ c = ⟨s.newUser token,address,.spawned,0,[],[]⟩ := by
  have hother : ∀ (t : ManagementServer) (id' : UInt64) (c' : Connection), some id' ≠ some id →
      t.connections = s.connections → (t.setConnection id' c').connections.lookup id ≠ some c := by
    intro t id' c' hne ht h
    rw [ManagementServer.setConnection_lookup,if_neg (fun heq => hne (by rw [heq])),ht,hnone] at h
    cases h
  cases hstep with
  | accept =>
    rw [s.accept_connections] at hc
    split at hc
    · rename_i hid
      cases hc
      exact ⟨_,_,rfl,rfl,hid,rfl⟩
    · rw [hnone] at hc
      cases hc
  | exec => exact (hother _ _ _ hactor (s.perform_connections _) hc).elim
  | _ => exact (hother s _ _ hactor rfl hc).elim

/-- The task at hand performs its next operation. -/
theorem step_exec {s : ManagementServer} {id : UInt64} {c : Connection} {o : Op}
    {k : o.Res → HandlerM Outcome} {r : o.Res} {b : Bytes} (hp : c.phase = .running o k)
    (hr : s.Answers o r) (hb : o.Writes r b) :
    Step (s.setConnection id c) (.exec id o r) ((s.perform o).setConnection id { c with
      phase := .ofProgram (k r), written := c.written ++ b }) := by
  have hperform : (s.setConnection id c).perform o = (s.perform o).setConnection id c := by
    cases o <;> rfl
  have hans : (s.setConnection id c).Answers o r := by
    cases o <;> exact hr
  have hstep := Step.exec (s.setConnection_own id c) hp hans hb
  rw [hperform,ManagementServer.setConnection_twice] at hstep
  exact hstep

/-- The task at hand reads. -/
theorem step_read {s : ManagementServer} {id : UInt64} {c : Connection} {b : Bytes} {r : ReadResult}
    (hp : c.phase = .select b) (hlen : r.bytes.length ≤ packetBufferSize) :
    Step (s.setConnection id c) (.read id r) (s.setConnection id { c with
      phase := .ofProgram (handleRead c.address b r), received := c.received ++ r.bytes }) := by
  have hstep := Step.read (s.setConnection_own id c) hp hlen
  rw [ManagementServer.setConnection_twice] at hstep
  exact hstep

/-- What a task keeps to, in terms of its affairs: `early` before it has subscribed,
`idle` when it waits in its `select!` with some bytes of an unfinished packet. -/
structure Law (G : Type) where
  view : Trace → ManagementServer → UInt64 → Connection → G
  discipline : UInt64 → SocketAddr → Discipline Op Op.Res G
  early : UInt64 → SocketAddr → G → Prop
  idle : UInt64 → SocketAddr → Bytes → G → Prop

namespace Law
variable {G : Type} (L : Law G)

/-- A branch of the `select!` has run. -/
def after (id : UInt64) (address : SocketAddr) : Outcome → G → Prop
  | .proceed packetBuffer, g => L.idle id address packetBuffer g
  | .exit _, _ => True

/-- The program keeps the law from these affairs on. -/
def Keeps (id : UInt64) (address : SocketAddr) (p : HandlerM Outcome) (g : G) : Prop :=
  (L.discipline id address).wp (L.after id address) p g

/-- The law in each phase of a task that has not returned. -/
def Holds (trace : Trace) (s : ManagementServer) (id : UInt64) (c : Connection) : Prop :=
  match c.phase with
  | .spawned => L.early id c.address (L.view trace s id c)
  | .connected => L.early id c.address (L.view trace s id c)
  | .select packetBuffer => L.idle id c.address packetBuffer (L.view trace s id c)
  | .running o k => L.Keeps id c.address (.op o k) (L.view trace s id c)
  | _ => True

/-- Each kind of step respects the law, in the runs whose steps meet `guard`. -/
structure Kept (guard : ManagementServer → Label → Prop) : Prop where
  early_stable : ∀ {id address g g'}, (L.discipline id address).rely g g' →
    L.early id address g → L.early id address g'
  idle_stable : ∀ {id address b g g'}, (L.discipline id address).rely g g' →
    L.idle id address b g → L.idle id address b g'
  others : ∀ {trace s label s' id c}, Run (Guarded guard Step) ManagementServer.new trace s →
    Guarded guard Step s label s' → label.actor ≠ some id → s.connections.lookup id = some c →
    c.phase.Alive →
      (L.discipline id c.address).rely (L.view trace s id c) (L.view (trace ++ [label]) s' id c)
  accept : ∀ {trace s address token}, Run (Guarded guard Step) ManagementServer.new trace s →
    Guarded guard Step s (.accept address token) (s.accept address token) →
      L.early s.nextUserId address (L.view (trace ++ [.accept address token]) (s.accept address token)
        s.nextUserId ⟨s.newUser token,address,.spawned,0,[],[]⟩)
  connect : ∀ {trace s id c}, Run (Guarded guard Step) ManagementServer.new trace s →
    s.connections.lookup id = some c → L.early id c.address (L.view trace s id c) →
      L.early id c.address (L.view (trace ++ [.connect id])
        ((s.setConnection id { c with phase := .connected }).sendEvent
          (.userConnected c.user.id c.user.token)) id { c with phase := .connected })
  subscribe : ∀ {trace s id c}, Run (Guarded guard Step) ManagementServer.new trace s →
    s.connections.lookup id = some c → L.early id c.address (L.view trace s id c) →
      L.idle id c.address [] (L.view (trace ++ [.subscribe id])
        (s.setConnection id { c with phase := .select [], cursor := s.broadcasts.length }) id
        { c with phase := .select [], cursor := s.broadcasts.length })
  read : ∀ {trace s id c b r phase}, Run (Guarded guard Step) ManagementServer.new trace s →
    guard s (.read id r) → s.connections.lookup id = some c → c.phase = .select b →
    L.idle id c.address b (L.view trace s id c) →
      L.Keeps id c.address (handleRead c.address b r) (L.view (trace ++ [.read id r])
        (s.setConnection id { c with phase := phase, received := c.received ++ r.bytes }) id
        { c with phase := phase, received := c.received ++ r.bytes })
  recv : ∀ {trace s id c b m phase}, Run (Guarded guard Step) ManagementServer.new trace s →
    guard s (.recv id (.ok m)) → s.connections.lookup id = some c → c.phase = .select b →
    s.broadcasts[c.cursor]? = some m → L.idle id c.address b (L.view trace s id c) →
      L.Keeps id c.address (handleRecv c.address b (.ok m)) (L.view (trace ++ [.recv id (.ok m)])
        (s.setConnection id { c with phase := phase, cursor := c.cursor + 1 }) id
        { c with phase := phase, cursor := c.cursor + 1 })
  lagged : ∀ {trace s id c b}, Run (Guarded guard Step) ManagementServer.new trace s →
    guard s (.recv id .lagged) → s.connections.lookup id = some c → c.phase = .select b →
    c.cursor + broadcastChannelCapacity < s.broadcasts.length →
    L.idle id c.address b (L.view trace s id c) →
      L.idle id c.address b (L.view (trace ++ [.recv id .lagged])
        (s.setConnection id { c with
          phase := .select b, cursor := s.broadcasts.length - broadcastChannelCapacity }) id
        { c with phase := .select b, cursor := s.broadcasts.length - broadcastChannelCapacity })
  answers : ∀ {trace s id c o r}, Run (Guarded guard Step) ManagementServer.new trace s →
    guard s (.exec id o r) → s.connections.lookup id = some c → s.Answers o r →
      (L.discipline id c.address).answers (L.view trace s id c) o r
  exec : ∀ {trace s id c o r b phase g}, Run (Guarded guard Step) ManagementServer.new trace s →
    guard s (.exec id o r) → s.connections.lookup id = some c → s.Answers o r → o.Writes r b →
    (L.discipline id c.address).effect (L.view trace s id c) o r g →
      (L.discipline id c.address).rely g (L.view (trace ++ [.exec id o r])
        ((s.perform o).setConnection id { c with phase := phase, written := c.written ++ b }) id
        { c with phase := phase, written := c.written ++ b })

variable {L} {trace : Trace} {s s' : ManagementServer} {id : UInt64} {c : Connection}

theorem holds_ofProgram {p : HandlerM Outcome} (hphase : c.phase = .ofProgram p)
    (h : L.Keeps id c.address p (L.view trace s id c)) : L.Holds trace s id c := by
  unfold Holds
  rw [hphase]
  cases p with
  | op o k => exact h
  | ret outcome =>
    have hpost := h _ ((L.discipline id c.address).rely_refl _)
    cases outcome with
    | proceed packetBuffer => exact hpost
    | exit e => trivial

namespace Kept
variable {guard : ManagementServer → Label → Prop}

theorem drift (h : L.Kept guard) {trace' : Trace} (hold : L.Holds trace s id c)
    (hrely : c.phase.Alive →
      (L.discipline id c.address).rely (L.view trace s id c) (L.view trace' s' id c)) :
    L.Holds trace' s' id c := by
  unfold Holds at hold ⊢
  cases hp : c.phase with
  | spawned =>
    rw [hp] at hold
    exact h.early_stable (hrely (by rw [hp]; trivial)) hold
  | connected =>
    rw [hp] at hold
    exact h.early_stable (hrely (by rw [hp]; trivial)) hold
  | select b =>
    rw [hp] at hold
    exact h.idle_stable (hrely (by rw [hp]; trivial)) hold
  | running o k =>
    rw [hp] at hold
    exact Discipline.wp_stable hold (hrely (by rw [hp]; trivial))
  | returned => trivial
  | ended => trivial
  | panicked => trivial

/-- The task that moves keeps the law. -/
theorem own {label : Label} {c' : Connection} (h : L.Kept guard)
    (hr : Run (Guarded guard Step) ManagementServer.new trace s) (hstep : Guarded guard Step s label s')
    (hactor : label.actor = some id) (hc : s.connections.lookup id = some c)
    (hold : L.Holds trace s id c) (hc' : s'.connections.lookup id = some c') :
    L.Holds (trace ++ [label]) s' id c' := by
  obtain ⟨hguard,hstep⟩ := hstep
  cases hstep with
  | accept => cases hactor
  | connect hl hp =>
    cases hactor
    cases hc.symm.trans hl
    cases (ManagementServer.setConnection_own _ _ _).symm.trans hc'
    rw [Holds,hp] at hold
    have hnew := h.connect hr hc hold
    exact hnew
  | subscribe hl hp =>
    cases hactor
    cases hc.symm.trans hl
    cases (ManagementServer.setConnection_own _ _ _).symm.trans hc'
    rw [Holds,hp] at hold
    have hnew := h.subscribe hr hc hold
    exact hnew
  | read hl hp hlen =>
    cases hactor
    cases hc.symm.trans hl
    cases (ManagementServer.setConnection_own _ _ _).symm.trans hc'
    rw [Holds,hp] at hold
    exact holds_ofProgram rfl (h.read hr hguard hc hp hold)
  | recv hl hp hm _ =>
    cases hactor
    cases hc.symm.trans hl
    cases (ManagementServer.setConnection_own _ _ _).symm.trans hc'
    rw [Holds,hp] at hold
    exact holds_ofProgram rfl (h.recv hr hguard hc hp hm hold)
  | lagged hl hp hring =>
    cases hactor
    cases hc.symm.trans hl
    cases (ManagementServer.setConnection_own _ _ _).symm.trans hc'
    rw [Holds,hp] at hold
    have hnew := h.lagged hr hguard hc hp hring hold
    exact hnew
  | closed hl hp =>
    cases hactor
    cases (ManagementServer.setConnection_own _ _ _).symm.trans hc'
    trivial
  | exec hl hp hans hb =>
    cases hactor
    cases hc.symm.trans hl
    cases (ManagementServer.setConnection_own _ _ _).symm.trans hc'
    rw [Holds,hp] at hold
    obtain ⟨g,heff,hk⟩ := Discipline.wp_op hold (h.answers hr hguard hc hans)
    exact holds_ofProgram rfl (Discipline.wp_stable hk (h.exec hr hguard hc hans hb heff))
  | panic hl hp _ =>
    cases hactor
    cases (ManagementServer.setConnection_own _ _ _).symm.trans hc'
    trivial
  | disconnect hl hp =>
    cases hactor
    cases (ManagementServer.setConnection_own _ _ _).symm.trans hc'
    trivial

/-- Every task keeps the law in every reachable state. -/
theorem run (h : L.Kept guard) (hr : Run (Guarded guard Step) ManagementServer.new trace s) :
    ∀ id c, s.connections.lookup id = some c → L.Holds trace s id c := by
  induction hr with
  | refl =>
    intro id c hc
    simp [ManagementServer.new] at hc
  | @snoc trace s label s' hr hstep ih =>
    intro id c' hc'
    by_cases hactor : label.actor = some id
    · obtain ⟨c,hc⟩ := step_actor hstep.2 hactor
      exact h.own hr hstep hactor hc (ih id c hc) hc'
    · cases hc : s.connections.lookup id with
      | some c =>
        cases (step_other hr hstep.2 hactor hc).symm.trans hc'
        exact h.drift (ih id c' hc) (h.others hr hstep hactor hc)
      | none =>
        obtain ⟨address,token,rfl,rfl,rfl,rfl⟩ := step_appears hstep.2 hactor hc hc'
        exact h.accept hr hstep

/-- Whatever operation a task executes, the law allows it. -/
theorem run_effect {o : Op} {r : o.Res} (h : L.Kept guard)
    (hr : Run (Guarded guard Step) ManagementServer.new trace s)
    (hstep : Guarded guard Step s (.exec id o r) s') :
    ∃ c g, s.connections.lookup id = some c ∧ c.phase.Alive ∧
      (L.discipline id c.address).effect (L.view trace s id c) o r g := by
  obtain ⟨hguard,hstep⟩ := hstep
  cases hstep with
  | @exec _ c _ _ _ _ hc hp hans hb =>
    have hold := h.run hr id c hc
    rw [Holds,hp] at hold
    obtain ⟨g,heff,_⟩ := Discipline.wp_op hold (h.answers hr hguard hc hans)
    exact ⟨c,g,hc,by rw [hp]; trivial,heff⟩

end Kept
end Law
end VoiceApp.Management
