import VoiceApp.Management.Operations

/-! # Who is connected, as the events say

A user is connected when its `UserConnected` has been sent and its `UserDisconnected` has
not. Each connection sends the first once and before the second, so this is what the
events folded one after the other say as well.
-/
namespace VoiceApp.Management
open Protocol Server

/-- By these events the token has been issued to a user who is still connected. -/
def Issued (token : UInt64) (events : List Event) : Prop :=
  ∃ id, .userConnected id token ∈ events ∧ .userDisconnected id ∉ events

/-- The connection of a user begins once, and does not end before. -/
def ConnectFirst (events : List Event) : Prop :=
  events.Pairwise fun e e' => ∀ id token, e' = .userConnected id token → connectionOf e ≠ some id

theorem connectFirst_concat {events : List Event} {e : Event} : ConnectFirst (events ++ [e]) ↔
    ConnectFirst events ∧ ∀ e' ∈ events, ∀ id token, e = .userConnected id token →
      connectionOf e' ≠ some id := by
  simp [ConnectFirst,List.pairwise_append]

theorem not_mem_of_connectionOf {events : List Event} {id : UInt64}
    (h : ∀ e ∈ events, connectionOf e ≠ some id) :
    (∀ token, .userConnected id token ∉ events) ∧ .userDisconnected id ∉ events :=
  ⟨fun _ hmem => h _ hmem rfl,fun hmem => h _ hmem rfl⟩

/-- The fold over the events gives a session to those who are connected. -/
theorem sessionOf_iff {events : List Event} (h : ConnectFirst events) (id token : UInt64) :
    (∃ inVoice, sessionOf id events = some (token,inVoice)) ↔
      .userConnected id token ∈ events ∧ .userDisconnected id ∉ events := by
  induction events using List.reverseRecOn with
  | nil => simp [sessionOf]
  | append_singleton events e ih =>
    obtain ⟨hbefore,hlast⟩ := connectFirst_concat.mp h
    have ih := ih hbefore
    rw [sessionOf_concat]
    cases e with
    | userConnected id' token' =>
      by_cases hid : id' = id
      · subst hid
        obtain ⟨hfirst,hstays⟩ := not_mem_of_connectionOf fun e' he' => hlast e' he' id' token' rfl
        simp [sessionStep,hfirst,hstays,eq_comm]
      · have hne : id ≠ id' := fun heq => hid heq.symm
        simp [sessionStep,hid,ih,hne]
    | voiceJoined id' =>
      by_cases hid : id' = id
      · simp [sessionStep,hid,← ih]
      · simp [sessionStep,hid,ih]
    | voiceLeft id' =>
      by_cases hid : id' = id
      · simp [sessionStep,hid,← ih]
      · simp [sessionStep,hid,ih]
    | userDisconnected id' =>
      by_cases hid : id' = id
      · simp [sessionStep,hid]
      · have hne : id ≠ id' := fun heq => hid heq.symm
        simp [sessionStep,hid,ih,hne]

/-! ## Events of every run -/

/-- Events come in order, and none before the task that sends it has begun. -/
structure Begun (s : ManagementServer) : Prop where
  order : ConnectFirst s.events
  known : ∀ e ∈ s.events, ∀ id, connectionOf e = some id →
    ∃ c, s.connections.lookup id = some c ∧ c.phase ≠ .spawned

section Runs
variable {trace : Trace} {s s' : ManagementServer} {label : Label}

/-- A task that says nothing about connections, or says that its own has ended. -/
theorem Begun.move (h : Begun s) {s₁ : ManagementServer} {id : UInt64} {c' : Connection}
    (hphase : c'.phase ≠ .spawned) (hconn : s₁.connections = s.connections) {more : List Event}
    (hevents : s₁.events = s.events ++ more)
    (hmore : ∀ e ∈ more, connectionOf e = none ∨ e = .userDisconnected id) :
    Begun (s₁.setConnection id c') := by
  have hknown : ∀ id' c, s.connections.lookup id' = some c → c.phase ≠ .spawned →
      ∃ c₂, (s₁.setConnection id c').connections.lookup id' = some c₂ ∧ c₂.phase ≠ .spawned := by
    intro id' c hc hp
    rw [ManagementServer.setConnection_lookup,hconn]
    split
    · exact ⟨c',rfl,hphase⟩
    · exact ⟨c,hc,hp⟩
  have hnoConnect : ∀ e ∈ more, ∀ id' token, e ≠ .userConnected id' token := by
    rintro e he id' token rfl
    rcases hmore _ he with hnone | hend
    · cases hnone
    · cases hend
  constructor
  · change ConnectFirst s₁.events
    rw [hevents]
    refine List.pairwise_append.mpr ⟨h.order,?_,?_⟩
    · exact List.pairwise_of_forall_mem_list fun _ _ e' he' id' token heq =>
        (hnoConnect e' he' id' token heq).elim
    · exact fun _ _ e' he' id' token heq => (hnoConnect e' he' id' token heq).elim
  · intro e he id' hid
    have he : e ∈ s₁.events := he
    rw [hevents] at he
    rcases List.mem_append.mp he with he | he
    · obtain ⟨c,hc,hp⟩ := h.known e he id' hid
      exact hknown id' c hc hp
    · rcases hmore e he with hnone | rfl
      · rw [hnone] at hid
        cases hid
      · cases hid
        exact ⟨c',ManagementServer.setConnection_own _ _ _,hphase⟩

theorem ofProgram_ne_spawned (p : HandlerM Outcome) : Phase.ofProgram p ≠ .spawned := by
  cases p with
  | ret outcome => cases outcome <;> simp [Phase.ofProgram]
  | op o k => simp [Phase.ofProgram]

theorem step_begun (hr : Run Step ManagementServer.new trace s) (h : Begun s)
    (hstep : Step s label s') : Begun s' := by
  have hguarded : ∀ {t label t'}, Step t label t' → Guarded (fun _ _ => True) Step t label t' :=
    fun hs => ⟨trivial,hs⟩
  have hall : Run (Guarded (fun _ _ => True) Step) ManagementServer.new trace s :=
    hr.mono fun _ _ _ hs => hguarded hs
  have hquiet : s.events = s.events ++ [] := (List.append_nil _).symm
  cases hstep with
  | @accept address token hid =>
    refine ⟨h.order,fun e he id hconn => ?_⟩
    obtain ⟨c,hc,hp⟩ := h.known e he id hconn
    have hne : id ≠ s.nextUserId := by
      rintro rfl
      rw [run_fresh hall] at hc
      cases hc
    exact ⟨c,by rw [s.accept_connections,if_neg hne,hc],hp⟩
  | @connect id c hc hp =>
    obtain ⟨hid,_⟩ := run_ids hall id c hc
    have hsilent : ∀ e ∈ s.events, connectionOf e ≠ some id := by
      intro e he hconn
      obtain ⟨c',hc',hp'⟩ := h.known e he id hconn
      cases hc.symm.trans hc'
      exact hp' hp
    have hbefore : Begun (s.setConnection id { c with phase := .connected }) :=
      h.move (by simp) rfl hquiet fun e he => (List.not_mem_nil he).elim
    constructor
    · change ConnectFirst (s.events ++ [.userConnected c.user.id c.user.token])
      refine connectFirst_concat.mpr ⟨h.order,?_⟩
      rintro e he id' token heq
      cases heq
      rw [hid]
      exact hsilent e he
    · intro e he id' hconn
      have he : e ∈ s.events ++ [.userConnected c.user.id c.user.token] := he
      rcases List.mem_append.mp he with he | he
      · exact hbefore.known e he id' hconn
      · cases List.mem_singleton.mp he
        cases hconn
        rw [hid]
        exact ⟨_,ManagementServer.setConnection_own _ _ _,by simp⟩
  | subscribe hc hp => exact h.move (by simp) rfl hquiet fun e he => (List.not_mem_nil he).elim
  | read hc hp =>
    exact h.move (ofProgram_ne_spawned _) rfl hquiet fun e he => (List.not_mem_nil he).elim
  | recv hc hp =>
    exact h.move (ofProgram_ne_spawned _) rfl hquiet fun e he => (List.not_mem_nil he).elim
  | @lagged id c b hc hp =>
    exact h.move (ofProgram_ne_spawned (handleRecv c.address b .lagged)) rfl hquiet
      fun e he => (List.not_mem_nil he).elim
  | @closed id c b hc hp =>
    exact h.move (ofProgram_ne_spawned (handleRecv c.address b .closed)) rfl hquiet
      fun e he => (List.not_mem_nil he).elim
  | @exec id c o k r b hc hp hans hb =>
    obtain ⟨_,_,_,hat⟩ := run_at hall (hguarded (Step.exec hc hp hans hb))
    cases o with
    | send e =>
      have hsent : (s.perform (.send e)).events = s.events ++ [e] := rfl
      refine h.move (ofProgram_ne_spawned _) rfl hsent fun e' he' => ?_
      cases List.mem_singleton.mp he'
      exact .inl hat
    | _ => exact h.move (ofProgram_ne_spawned _) rfl hquiet fun e he => (List.not_mem_nil he).elim
  | panic hc hp => exact h.move (by simp) rfl hquiet fun e he => (List.not_mem_nil he).elim
  | @disconnect id c e hc hp =>
    obtain ⟨hid,_⟩ := run_ids hall id c hc
    have hsent : (s.sendEvent (.userDisconnected c.user.id)).events =
        s.events ++ [.userDisconnected c.user.id] := rfl
    have hafter : Begun ((s.sendEvent (.userDisconnected c.user.id)).setConnection id
        { c with phase := .ended }) := by
      refine h.move (by simp) rfl hsent fun e' he' => ?_
      rw [List.mem_singleton.mp he',hid]
      exact .inr rfl
    exact hafter

theorem run_begun (hr : Run Step ManagementServer.new trace s) : Begun s := by
  induction hr with
  | refl => exact ⟨List.Pairwise.nil,fun e he => (List.not_mem_nil he).elim⟩
  | snoc hr hstep ih => exact step_begun hr ih hstep

/-- In every state the fold over any first part of the events names those connected by it. -/
theorem run_sessionOf_iff (hr : Run Step ManagementServer.new trace s) (n : ℕ) (id token : UInt64) :
    (∃ inVoice, sessionOf id (s.events.take n) = some (token,inVoice)) ↔
      .userConnected id token ∈ s.events.take n ∧ .userDisconnected id ∉ s.events.take n :=
  sessionOf_iff ((run_begun hr).order.sublist (List.take_sublist n _)) id token

end Runs
end VoiceApp.Management
