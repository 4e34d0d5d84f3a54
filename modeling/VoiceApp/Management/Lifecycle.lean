import VoiceApp.Management.Ledger

/-! # The life of a connection in every run

The ledgers of all connections are kept at once: a step of one task moves its own ledger
as its program says and leaves all others alone, because no two tasks that still use
their record have the same address.
-/
namespace VoiceApp.Management
open Protocol Server

/-- The task still uses its record. -/
def Phase.Alive : Phase → Prop
  | .spawned => True
  | .connected => True
  | .select _ => True
  | .running .. => True
  | _ => False

theorem Phase.alive_ended (h : Phase.Alive .ended) (e : Exit) : Phase.Alive (.returned e) := h.elim

/-- What a run takes for granted: whether writes succeed and nothing panics, and for how
long the address of a connection is not accepted again. -/
structure Assumptions where
  reliable : Prop
  held : Phase → Prop
  held_alive : ∀ phase, phase.Alive → held phase
  held_ended : held .ended → ∀ e, held (.returned e)

namespace Assumptions

def guard (A : Assumptions) (s : ManagementServer) : Label → Prop
  | .accept address _ => ∀ id c, s.connections.lookup id = some c → A.held c.phase →
      c.address ≠ address
  | .exec _ (.write _) written => A.reliable → written = true
  | .panic _ => ¬ A.reliable
  | _ => True

end Assumptions

variable (A : Assumptions)

/-- The ledger that goes with each phase of a task. -/
def Settled (id : UInt64) (c : Connection) (g : Ledger) : Prop :=
  match c.phase with
  | .spawned => g.own = some c.user ∧ c.user.inVoice = false ∧
      g.session = none ∧ g.departed = [] ∧ g.farewells = []
  | .connected => Steady A.reliable id c.user.token g
  | .select _ => Steady A.reliable id c.user.token g
  | .running o k =>
    Within A.reliable id c.address (AfterBranch A.reliable id c.user.token) (.op o k) g
  | .returned e => A.held (.returned e) → Gone A.reliable id c.user.token e g
  | .ended => g.session = none
  | .panicked => ¬ A.reliable

/-- The invariant of all runs: ids are dealt out once, every record belongs to the
connection with its id, addresses in use are apart, and every ledger is settled. -/
structure Lifecycle (trace : Trace) (s : ManagementServer) : Prop where
  ids : ∀ id c, s.connections.lookup id = some c → c.user.id = id ∧ id.toNat < s.nextUserId.toNat
  owner : ∀ a u, s.users.lookup a = some u →
    ∃ c, s.connections.lookup u.id = some c ∧ c.address = a
  apart : ∀ id id' c c', s.connections.lookup id = some c → s.connections.lookup id' = some c' →
    A.held c.phase → A.held c'.phase → id' ≠ id → c'.address ≠ c.address
  unknown : ∀ id, s.connections.lookup id = none → sessionOf id s.events = none ∧
    farewells id s.broadcasts = [] ∧ departed id trace = []
  settled : ∀ id c, s.connections.lookup id = some c →
    Settled A id c (ledger trace s id c.address)

variable {A}

theorem lifecycle_new : Lifecycle A [] ManagementServer.new := by
  refine ⟨?_,?_,?_,?_,?_⟩
  · intro id c h
    simp [ManagementServer.new] at h
  · intro a u h
    simp [ManagementServer.new] at h
  · intro id id' c c' h
    simp [ManagementServer.new] at h
  · exact fun id _ => ⟨rfl,rfl,rfl⟩
  · intro id c h
    simp [ManagementServer.new] at h

/-! ## Ledgers of the other tasks -/

theorem sessionOf_concat (id : UInt64) (events : List Event) (e : Event) :
    sessionOf id (events ++ [e]) = sessionStep id (sessionOf id events) e := by
  simp [sessionOf]

theorem farewells_concat (id : UInt64) (broadcasts : List BroadcastMessage) (m : BroadcastMessage) :
    farewells id (broadcasts ++ [m]) = farewells id broadcasts ++ (farewell id m).toList := by
  unfold farewells
  rw [List.filterMap_append]
  cases h : farewell id m <;> simp [h]

theorem departed_concat (id : UInt64) (trace : Trace) (label : Label) :
    departed id (trace ++ [label]) = departed id trace ++ (label.removed id).toList := by
  unfold departed
  rw [List.filterMap_append]
  cases h : label.removed id <;> simp [h]

/-- Only a task that may still use its record looks at it. -/
theorem Settled.frame {id : UInt64} {c : Connection} {g g' : Ledger} (h : Settled A id c g)
    (hown : A.held c.phase → g'.own = g.own) (hsession : g'.session = g.session)
    (hfarewells : g'.farewells = g.farewells) (hdeparted : g'.departed = g.departed) :
    Settled A id c g' := by
  have hsame : A.held c.phase → g' = g := by
    intro hheld
    cases g
    cases g'
    simp_all
  unfold Settled at h ⊢
  cases hp : c.phase with
  | ended =>
    rw [hp] at h
    exact hsession.trans h
  | panicked =>
    rw [hp] at h
    exact h
  | returned e =>
    rw [hp] at h
    intro hheld
    rw [hsame (hp ▸ hheld)]
    exact h hheld
  | spawned =>
    rw [hsame (hp ▸ A.held_alive .spawned trivial)]
    rw [hp] at h
    exact h
  | connected =>
    rw [hsame (hp ▸ A.held_alive .connected trivial)]
    rw [hp] at h
    exact h
  | select packetBuffer =>
    rw [hsame (hp ▸ A.held_alive (.select packetBuffer) trivial)]
    rw [hp] at h
    exact h
  | running o k =>
    rw [hsame (hp ▸ A.held_alive (.running o k) trivial)]
    rw [hp] at h
    exact h

/-- One task moves; the others keep their ledgers. -/
theorem Lifecycle.move {trace : Trace} {s s₁ : ManagementServer} {label : Label} {id : UInt64}
    {c c' : Connection} (h : Lifecycle A trace s) (hc : s.connections.lookup id = some c)
    (hconn : s₁.connections = s.connections) (hnext : s₁.nextUserId = s.nextUserId)
    (huser : c'.user = c.user) (haddr : c'.address = c.address)
    (hheld : A.held c'.phase → A.held c.phase)
    (hrecords : ∀ id' c₂, id' ≠ id → s.connections.lookup id' = some c₂ → A.held c₂.phase →
      s₁.users.lookup c₂.address = s.users.lookup c₂.address)
    (howner : ∀ a u, s₁.users.lookup a = some u → ∃ u', s.users.lookup a = some u' ∧ u'.id = u.id)
    (hevents : ∀ id', id' ≠ id → sessionOf id' s₁.events = sessionOf id' s.events)
    (hbroadcasts : ∀ id', id' ≠ id → farewells id' s₁.broadcasts = farewells id' s.broadcasts)
    (hremoved : ∀ id', id' ≠ id → label.removed id' = none)
    (hsettled : Settled A id c' (ledger (trace ++ [label]) s₁ id c.address)) :
    Lifecycle A (trace ++ [label]) (s₁.setConnection id c') := by
  have hdeparted : ∀ id', id' ≠ id → departed id' (trace ++ [label]) = departed id' trace := by
    intro id' hne
    rw [departed_concat,hremoved id' hne]
    exact List.append_nil _
  have hlookup : ∀ id', (s₁.setConnection id c').connections.lookup id' =
      if id' = id then some c' else s.connections.lookup id' := by
    intro id'
    rw [ManagementServer.setConnection_lookup,hconn]
  refine ⟨?_,?_,?_,?_,?_⟩
  · intro id' c₂ h₂
    rw [hlookup] at h₂
    change c₂.user.id = id' ∧ id'.toNat < s₁.nextUserId.toNat
    rw [hnext]
    split at h₂
    · rename_i hid
      cases h₂
      rw [hid,huser]
      exact h.ids id c hc
    · exact h.ids id' c₂ h₂
  · intro a u hu
    obtain ⟨u',hu',hid⟩ := howner a u hu
    obtain ⟨c₂,h₂,ha⟩ := h.owner a u' hu'
    rw [hid] at h₂
    rw [hlookup]
    split
    · rename_i hid'
      rw [hid',hc] at h₂
      cases h₂
      exact ⟨c',rfl,haddr.trans ha⟩
    · exact ⟨c₂,h₂,ha⟩
  · intro id₁ id₂ c₁ c₂ h₁ h₂ hh₁ hh₂ hne
    rw [hlookup] at h₁ h₂
    split at h₁ <;> split at h₂
    · rename_i hid₁ hid₂
      exact (hne (hid₂.trans hid₁.symm)).elim
    · rename_i hid₁ hid₂
      cases h₁
      rw [haddr]
      exact h.apart id id₂ c c₂ hc h₂ (hheld hh₁) hh₂ (hid₁ ▸ hne)
    · rename_i hid₁ hid₂
      cases h₂
      rw [haddr]
      exact h.apart id₁ id c₁ c h₁ hc hh₁ (hheld hh₂) (hid₂ ▸ hne)
    · exact h.apart id₁ id₂ c₁ c₂ h₁ h₂ hh₁ hh₂ hne
  · intro id' h'
    rw [hlookup] at h'
    split at h'
    · cases h'
    · rename_i hne
      obtain ⟨hs,hf,hd⟩ := h.unknown id' h'
      exact ⟨(hevents id' hne).trans hs,(hbroadcasts id' hne).trans hf,(hdeparted id' hne).trans hd⟩
  · intro id' c₂ h₂
    rw [hlookup] at h₂
    split at h₂
    · rename_i hid
      cases h₂
      rw [hid,haddr]
      exact hsettled
    · rename_i hne
      exact (h.settled id' c₂ h₂).frame (hrecords id' c₂ hne h₂) (hevents id' hne)
        (hbroadcasts id' hne) (hdeparted id' hne)

theorem Lifecycle.fresh {trace : Trace} {s : ManagementServer} (h : Lifecycle A trace s) :
    s.connections.lookup s.nextUserId = none := by
  cases hl : s.connections.lookup s.nextUserId with
  | none => rfl
  | some c =>
    have := (h.ids _ c hl).2
    omega

/-- A new connection starts with a record of its own and a blank ledger. -/
theorem Lifecycle.accept {trace : Trace} {s : ManagementServer} {address : SocketAddr}
    {token : UInt64} (h : Lifecycle A trace s) (hid : s.nextUserId.toNat + 1 < 2 ^ 64)
    (hguard : A.guard s (.accept address token)) :
    Lifecycle A (trace ++ [.accept address token]) (s.accept address token) := by
  have hfresh := h.fresh
  have hnext := BigEndian.toNat_succ hid
  have hdeparted : ∀ id, departed id (trace ++ [.accept address token]) = departed id trace := by
    intro id
    rw [departed_concat]
    exact List.append_nil _
  have hlookup := s.accept_connections address token
  have husers := s.accept_users address token
  refine ⟨?_,?_,?_,?_,?_⟩
  · intro id c hc
    rw [hlookup] at hc
    change c.user.id = id ∧ id.toNat < (s.nextUserId + 1).toNat
    rw [hnext]
    split at hc
    · rename_i hnew
      cases hc
      rw [hnew]
      exact ⟨rfl,Nat.lt_succ_self _⟩
    · obtain ⟨huser,hlt⟩ := h.ids id c hc
      exact ⟨huser,Nat.lt_succ_of_lt hlt⟩
  · intro a u hu
    rw [husers] at hu
    rw [hlookup]
    split at hu
    · rename_i ha
      cases hu
      exact ⟨_,if_pos rfl,ha.symm⟩
    · obtain ⟨c,hc,ha⟩ := h.owner a u hu
      have hne : u.id ≠ s.nextUserId := by
        intro heq
        rw [heq,hfresh] at hc
        cases hc
      exact ⟨c,by rw [if_neg hne,hc],ha⟩
  · intro id id' c c' hc hc' hheld hheld' hne
    rw [hlookup] at hc hc'
    split at hc <;> split at hc'
    · rename_i hnew hnew'
      exact (hne (hnew'.trans hnew.symm)).elim
    · cases hc
      exact hguard id' c' hc' hheld'
    · cases hc'
      exact (hguard id c hc hheld).symm
    · exact h.apart id id' c c' hc hc' hheld hheld' hne
  · intro id hnone
    rw [hlookup] at hnone
    split at hnone
    · cases hnone
    · obtain ⟨hs,hf,hd⟩ := h.unknown id hnone
      exact ⟨hs,hf,(hdeparted id).trans hd⟩
  · intro id c hc
    rw [hlookup] at hc
    split at hc
    · rename_i hnew
      cases hc
      obtain ⟨hs,hf,hd⟩ := h.unknown _ hfresh
      rw [hnew]
      exact ⟨by rw [ledger,husers,if_pos rfl],rfl,hs,(hdeparted _).trans hd,hf⟩
    · refine (h.settled id c hc).frame ?_ rfl rfl (hdeparted id)
      intro hheld
      have hne : c.address ≠ address := hguard id c hc hheld
      exact (husers c.address).trans (if_neg hne)

/-! ## One operation -/

/-- The answer that the shared state gives is one the task may rely on. -/
theorem answers_ledger {trace : Trace} {s : ManagementServer} {id : UInt64} {address : SocketAddr}
    {o : Op} {r : o.Res} (hr : s.Answers o r) (hguard : A.guard s (.exec id o r)) :
    (discipline A.reliable id address).answers (ledger trace s id address) o r := by
  cases o with
  | getMut a update =>
    rintro rfl
    exact hr
  | get a =>
    rintro rfl
    exact hr
  | remove a =>
    rintro rfl
    exact hr
  | encode packet => exact hr
  | write data => exact hguard
  | _ => trivial

section Effect
variable {trace : Trace} {s : ManagementServer} {id : UInt64} {address : SocketAddr} {o : Op}
  {r : o.Res} {g : Ledger}

/-- The ledger after an operation is the one the discipline names. -/
theorem ledger_perform (hr : s.Answers o r)
    (heff : (discipline A.reliable id address).effect (ledger trace s id address) o r g) :
    ledger (trace ++ [.exec id o r]) (s.perform o) id address = g := by
  have hlabel : departed id (trace ++ [.exec id o r]) =
      departed id trace ++ (Label.removed id (.exec id o r)).toList := departed_concat _ _ _
  cases o with
  | getMut a update =>
    obtain ⟨rfl,_,rfl⟩ := heff
    have hown : (s.perform (.getMut a update)).users.lookup a = r := by
      have hr : r = (s.users.lookup a).map update := hr
      simp [ManagementServer.perform,Table.lookup_modify,hr]
    have hnone := hlabel.trans (List.append_nil _)
    rw [ledger,hown,hnone]
    rfl
  | remove a =>
    obtain ⟨rfl,rfl⟩ := heff
    have hsome : departed id (trace ++ [.exec id (.remove a) r]) = departed id trace ++ r.toList := by
      rw [hlabel]
      simp [Label.removed]
    simp [ledger,hsome,ManagementServer.perform]
  | broadcast m =>
    obtain ⟨_,rfl⟩ := heff
    have hnone := hlabel.trans (List.append_nil _)
    simp [ledger,hnone,ManagementServer.perform,farewells_concat]
  | send e =>
    obtain ⟨_,rfl⟩ := heff
    have hnone := hlabel.trans (List.append_nil _)
    simp [ledger,hnone,ManagementServer.perform,ManagementServer.sendEvent,sessionOf_concat]
  | _ =>
    obtain rfl := heff
    have hnone := hlabel.trans (List.append_nil _)
    simp [ledger,hnone,ManagementServer.perform]

/-- No other record is touched. -/
theorem perform_users
    (heff : (discipline A.reliable id address).effect (ledger trace s id address) o r g)
    {a : SocketAddr} (hne : a ≠ address) : (s.perform o).users.lookup a = s.users.lookup a := by
  cases o with
  | getMut a' update =>
    obtain ⟨rfl,_,_⟩ := heff
    simp [ManagementServer.perform,Table.lookup_modify,hne]
  | remove a' =>
    obtain ⟨rfl,_⟩ := heff
    simp [ManagementServer.perform,hne]
  | _ => rfl

/-- Records keep their ids, and none appears. -/
theorem perform_owner
    (heff : (discipline A.reliable id address).effect (ledger trace s id address) o r g)
    {a : SocketAddr} {u : User} (hu : (s.perform o).users.lookup a = some u) :
    ∃ u', s.users.lookup a = some u' ∧ u'.id = u.id := by
  refine ManagementServer.perform_ids ?_ hu
  rintro a update rfl
  exact heff.2.1

/-- Nothing is said about another id. -/
theorem perform_others
    (heff : (discipline A.reliable id address).effect (ledger trace s id address) o r g)
    {id' : UInt64} (hne : id' ≠ id) : sessionOf id' (s.perform o).events = sessionOf id' s.events ∧
      farewells id' (s.perform o).broadcasts = farewells id' s.broadcasts ∧
      Label.removed id' (.exec id o r) = none := by
  cases o with
  | remove a' => exact ⟨rfl,rfl,if_neg (Ne.symm hne)⟩
  | broadcast m =>
    refine ⟨rfl,?_,rfl⟩
    simp [ManagementServer.perform,farewells_concat,heff.1 id' hne]
  | send e =>
    refine ⟨?_,rfl,rfl⟩
    have he := heff.1
    simp only [ManagementServer.perform,ManagementServer.sendEvent,sessionOf_concat]
    rcases he with rfl | rfl <;> simp [sessionStep,Ne.symm hne]
  | _ => exact ⟨rfl,rfl,rfl⟩

end Effect

/-- What is left of a program decides the phase. -/
theorem settled_ofProgram {id : UInt64} {c : Connection} {p : HandlerM Outcome} {g : Ledger}
    (hphase : c.phase = .ofProgram p)
    (h : Within A.reliable id c.address (AfterBranch A.reliable id c.user.token) p g) :
    Settled A id c g := by
  unfold Settled
  rw [hphase]
  cases p with
  | op o k => exact h
  | ret outcome =>
    have hpost := h g rfl
    cases outcome with
    | proceed packetBuffer => exact hpost
    | exit e => exact fun _ => hpost

/-! ## Runs -/

section Steps
variable {trace : Trace} {s : ManagementServer} {label : Label} {id : UInt64} {c c' : Connection}

/-- A step that touches neither records nor broadcasts. -/
theorem Lifecycle.quiet (h : Lifecycle A trace s) (hlabel : ∀ id', label.removed id' = none)
    (s₁ : ManagementServer) (hs₁ : s₁ = { s with events := s₁.events })
    (hc : s.connections.lookup id = some c)
    (hevents : ∀ id', id' ≠ id → sessionOf id' s₁.events = sessionOf id' s.events)
    (huser : c'.user = c.user) (haddr : c'.address = c.address)
    (hheld : A.held c'.phase → A.held c.phase)
    (hsettled : Settled A id c'
      { ledger trace s id c.address with session := sessionOf id s₁.events }) :
    Lifecycle A (trace ++ [label]) (s₁.setConnection id c') := by
  have husers : s₁.users = s.users := by rw [hs₁]
  have hbroadcasts : s₁.broadcasts = s.broadcasts := by rw [hs₁]
  have hdeparted : departed id (trace ++ [label]) = departed id trace := by
    rw [departed_concat,hlabel id]
    exact List.append_nil _
  refine h.move hc (by rw [hs₁]) (by rw [hs₁]) huser haddr hheld (fun _ _ _ _ _ => by rw [husers])
    (fun a u hu => ⟨u,by rwa [husers] at hu,rfl⟩) hevents (fun _ _ => by rw [hbroadcasts])
    (fun id' _ => hlabel id') ?_
  rw [ledger,husers,hbroadcasts,hdeparted]
  exact hsettled

/-- A branch of the `select!` begins. -/
theorem Lifecycle.branch (h : Lifecycle A trace s) (hlabel : ∀ id', label.removed id' = none)
    (hc : s.connections.lookup id = some c) {packetBuffer : Bytes}
    (hp : c.phase = .select packetBuffer) {p : HandlerM Outcome}
    (hprogram : ∀ g, Steady A.reliable id c.user.token g →
      Within A.reliable id c.address (AfterBranch A.reliable id c.user.token) p g)
    (huser : c'.user = c.user) (haddr : c'.address = c.address) (hphase : c'.phase = .ofProgram p) :
    Lifecycle A (trace ++ [label]) (s.setConnection id c') := by
  have hset := h.settled id c hc
  rw [Settled,hp] at hset
  have hheld : A.held c.phase := A.held_alive _ (by rw [hp]; trivial)
  refine h.quiet hlabel s rfl hc (fun _ _ => rfl) huser haddr (fun _ => hheld) ?_
  apply settled_ofProgram hphase
  rw [huser,haddr]
  exact hprogram _ hset

end Steps

theorem step_lifecycle {trace : Trace} {s s' : ManagementServer} {label : Label}
    (h : Lifecycle A trace s) (hstep : Guarded A.guard Step s label s') :
    Lifecycle A (trace ++ [label]) s' := by
  obtain ⟨hguard,hstep⟩ := hstep
  cases hstep with
  | accept hid => exact h.accept hid hguard
  | @connect id c hc hp =>
    have hset := h.settled id c hc
    rw [Settled,hp] at hset
    obtain ⟨hown,hvoice,hsession,hdeparted,hfarewells⟩ := hset
    obtain ⟨hid,_⟩ := h.ids id c hc
    have hheld : A.held c.phase := A.held_alive _ (by rw [hp]; trivial)
    have hsend : sessionOf id (s.sendEvent (.userConnected c.user.id c.user.token)).events =
        some (c.user.token,false) := by
      simp only [ManagementServer.sendEvent,sessionOf_concat,sessionStep,hid,if_true]
    refine h.quiet (fun _ => rfl) (s.sendEvent (.userConnected c.user.id c.user.token)) rfl hc
      ?_ rfl rfl (fun _ => hheld) ?_
    · intro id' hne
      rw [ManagementServer.sendEvent,sessionOf_concat]
      exact if_neg fun heq => hne (heq.symm.trans hid)
    · refine ⟨⟨c.user,hown,hid,rfl,fun _ => ?_⟩,hdeparted,?_⟩
      · rw [hvoice]
        exact hsend
      · rw [hfarewells]
        exact List.not_mem_nil
  | @subscribe id c hc hp =>
    have hset := h.settled id c hc
    rw [Settled,hp] at hset
    have hheld : A.held c.phase := A.held_alive _ (by rw [hp]; trivial)
    exact h.quiet (fun _ => rfl) s rfl hc (fun _ _ => rfl) rfl rfl (fun _ => hheld) hset
  | read hc hp =>
    exact h.branch (fun _ => rfl) hc hp (fun _ hg => handleRead_afterBranch hg _ _) rfl rfl rfl
  | recv hc hp =>
    exact h.branch (fun _ => rfl) hc hp (fun _ hg => handleRecv_afterBranch hg _ _) rfl rfl rfl
  | lagged hc hp =>
    exact h.branch (fun _ => rfl) hc hp (fun _ hg => handleRecv_afterBranch hg _ .lagged) rfl rfl rfl
  | @closed _ _ packetBuffer hc hp =>
    exact h.branch (fun _ => rfl) hc hp (fun _ hg => handleRecv_afterBranch hg packetBuffer .closed)
      rfl rfl rfl
  | @exec id c o k r b hc hp hr hb =>
    have hset := h.settled id c hc
    rw [Settled,hp] at hset
    have hheld : A.held c.phase := A.held_alive _ (by rw [hp]; trivial)
    obtain ⟨g,heff,hk⟩ := Discipline.wp_op hset (answers_ledger hr hguard)
    refine h.move hc (s.perform_connections o) (s.perform_nextUserId o) rfl rfl (fun _ => hheld) ?_
      (fun _ _ hu => perform_owner heff hu) (fun _ hne => (perform_others heff hne).1)
      (fun _ hne => (perform_others heff hne).2.1) (fun _ hne => (perform_others heff hne).2.2) ?_
    · intro id' c₂ hne hc₂ hheld₂
      exact perform_users heff (h.apart id id' c c₂ hc hc₂ hheld hheld₂ hne)
    · rw [ledger_perform hr heff]
      exact settled_ofProgram rfl hk
  | @panic id c packet k hc hp hnone =>
    have hheld : A.held c.phase := A.held_alive _ (by rw [hp]; trivial)
    exact h.quiet (fun _ => rfl) s rfl hc (fun _ _ => rfl) rfl rfl (fun _ => hheld) hguard
  | @disconnect id c e hc hp =>
    obtain ⟨hid,_⟩ := h.ids id c hc
    refine h.quiet (fun _ => rfl) (s.sendEvent (.userDisconnected c.user.id)) rfl hc ?_ rfl rfl
      ?_ ?_
    · intro id' hne
      rw [ManagementServer.sendEvent,sessionOf_concat]
      exact if_neg fun heq => hne (heq.symm.trans hid)
    · intro hheld
      rw [hp]
      exact A.held_ended hheld e
    · simp only [Settled,ManagementServer.sendEvent,sessionOf_concat,sessionStep,hid,if_true]

/-- Every reachable state is settled. -/
theorem run_lifecycle {trace : Trace} {s : ManagementServer}
    (h : Run (Guarded A.guard Step) ManagementServer.new trace s) : Lifecycle A trace s := by
  induction h with
  | refl => exact lifecycle_new
  | snoc _ hstep ih => exact step_lifecycle ih hstep

end VoiceApp.Management
