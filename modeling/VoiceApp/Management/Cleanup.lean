import VoiceApp.Management.Lifecycle

/-! # What is left of a connection that has returned

The two exits of the read branch take the record out and announce it. The two exits of
the broadcast branch return without doing so, and the record stays behind for good.
-/
namespace VoiceApp.Management
open Protocol Server

/-- Every connection has a peer address of its own. -/
def distinctPeers : Assumptions where
  reliable := False
  held _ := True
  held_alive _ _ := trivial
  held_ended _ _ := trivial

/-- No record has this id. -/
def Unlisted (s : ManagementServer) (id : UInt64) : Prop :=
  ∀ a u, s.users.lookup a = some u → u.id ≠ id

/-- The record of the user is gone; it was taken out once, and then exactly one
`UserLeftServer` was broadcast, and a `UserLeftVoice` behind it if the record was in voice. -/
def Cleaned (trace : Trace) (s : ManagementServer) (id : UInt64) : Prop :=
  Unlisted s id ∧ ∃ u before, departed id trace = [u] ∧ .userLeftServer id ∉ before ∧
    farewells id s.broadcasts =
      before ++ .userLeftServer id :: if u.inVoice then [.userLeftVoice id] else []

section Records
variable {A : Assumptions} {trace : Trace} {s s' : ManagementServer} {label : Label}

/-- Records appear only with a new id. -/
theorem step_records (h : Lifecycle A trace s) (hstep : Guarded A.guard Step s label s')
    {a : SocketAddr} {u : User} (hu : s'.users.lookup a = some u) :
    (∃ u', s.users.lookup a = some u' ∧ u'.id = u.id) ∨ u.id = s.nextUserId := by
  obtain ⟨hguard,hstep⟩ := hstep
  cases hstep with
  | @accept address token hid =>
    rw [s.accept_users] at hu
    split at hu
    · cases hu
      exact .inr rfl
    · exact .inl ⟨u,hu,rfl⟩
  | @exec id c o k r b hc hp hr hb =>
    have hset := h.settled id c hc
    rw [Settled,hp] at hset
    obtain ⟨g,heff,_⟩ := Discipline.wp_op hset (answers_ledger hr hguard)
    exact .inl (perform_owner heff hu)
  | _ => exact .inl ⟨u,hu,rfl⟩

theorem step_connection (hstep : Step s label s') {id : UInt64} {c : Connection}
    (hc : s.connections.lookup id = some c) : ∃ c', s'.connections.lookup id = some c' := by
  have hinsert : ∀ (t : Table UInt64 Connection) (id' : UInt64) (c' : Connection),
      t.lookup id = some c → ∃ c'', (t.insert id' c').lookup id = some c'' := by
    intro t id' c' ht
    rw [Table.lookup_insert_eq]
    split
    · exact ⟨c',rfl⟩
    · exact ⟨c,ht⟩
  cases hstep with
  | exec => exact hinsert _ _ _ (by simpa using hc)
  | _ => exact hinsert _ _ _ hc

/-- A connection that is not listed any more will never be listed again. -/
theorem run_unlisted {more : Trace} {id : UInt64} {c : Connection} (h : Lifecycle A trace s)
    (hr : Run (Guarded A.guard Step) s more s') (hc : s.connections.lookup id = some c)
    (hu : Unlisted s id) : Unlisted s' id := by
  have hall : Lifecycle A (trace ++ more) s' ∧ Unlisted s' id ∧
      ∃ c', s'.connections.lookup id = some c' := by
    induction hr with
    | refl => exact ⟨by rwa [List.append_nil],hu,c,hc⟩
    | snoc _ hstep ih =>
      obtain ⟨hlife,hunlisted,c',hc'⟩ := ih
      refine ⟨?_,?_,step_connection hstep.2 hc'⟩
      · rw [← List.append_assoc]
        exact step_lifecycle hlife hstep
      · intro a u hl heq
        rcases step_records hlife hstep hl with ⟨u',hl',hid⟩ | hnew
        · exact hunlisted a u' hl' (hid.trans heq)
        · have hfresh := hlife.fresh
          rw [← hnew,heq,hc'] at hfresh
          cases hfresh
  exact hall.2.1

end Records

theorem cleaned_of_takenLeave {A : Assumptions} {trace : Trace} {s : ManagementServer} {id : UInt64}
    {c : Connection} (h : Lifecycle A trace s) (hc : s.connections.lookup id = some c)
    (hgone : TakenLeave id (ledger trace s id c.address)) : Cleaned trace s id := by
  refine ⟨?_,hgone.told⟩
  rintro a u hu rfl
  obtain ⟨c',hc',ha⟩ := h.owner a u hu
  rw [hc] at hc'
  cases hc'
  have hrecord : s.users.lookup c.address = none := hgone.record
  rw [ha,hu] at hrecord
  cases hrecord

/-- When the task of a connection is about to report its end, everything has been cleaned
up for good exactly if it returned from the read branch. -/
theorem returned_cleaned_iff {trace : Trace} {s : ManagementServer} {id : UInt64} {c : Connection}
    {e : Exit} (h : Run (Guarded distinctPeers.guard Step) ManagementServer.new trace s)
    (hc : s.connections.lookup id = some c) (hp : c.phase = .returned e) :
    (Cleaned trace s id ∧ ∀ more t, Run (Guarded distinctPeers.guard Step) s more t →
      Unlisted t id) ↔ e = .eof ∨ e = .readError := by
  have hlife := run_lifecycle h
  have hset := hlife.settled id c hc
  rw [Settled,hp] at hset
  have hgone := hset trivial
  have hclean : TakenLeave id (ledger trace s id c.address) → Cleaned trace s id ∧
      ∀ more t, Run (Guarded distinctPeers.guard Step) s more t → Unlisted t id := by
    intro htaken
    have hcleaned := cleaned_of_takenLeave hlife hc htaken
    exact ⟨hcleaned,fun more t hr => run_unlisted hlife hr hc hcleaned.1⟩
  have hleft : Steady distinctPeers.reliable id c.user.token (ledger trace s id c.address) →
      ¬ Cleaned trace s id := by
    intro hsteady hcleaned
    obtain ⟨u,hown,hid,_⟩ := hsteady.record
    exact hcleaned.1 c.address u hown hid
  cases e with
  | eof => exact ⟨fun _ => .inl rfl,fun _ => hclean hgone⟩
  | readError => exact ⟨fun _ => .inr rfl,fun _ => hclean hgone⟩
  | broadcastWriteFailed => exact ⟨fun h => (hleft hgone h.1).elim,by simp⟩
  | broadcastClosed => exact ⟨fun h => (hleft hgone h.1).elim,by simp⟩

/-! ## A run in which one user leaves and another loses its connection -/

theorem guarded_step {s s' : ManagementServer} {label : Label} (h : Step s label s')
    (hl : ∀ a token, label ≠ .accept a token) : Guarded distinctPeers.guard Step s label s' := by
  refine ⟨?_,h⟩
  cases label with
  | accept a token => exact (hl a token rfl).elim
  | exec id o r =>
    cases o with
    | write => exact fun h => h.elim
    | _ => trivial
  | panic id => exact fun h => h
  | _ => trivial

/-- The announcement that user 2 has left. -/
def leftTwo : BroadcastMessage := ⟨none,[0x44,0,8,0,0,0,0,0,0,0,2]⟩

theorem encode_leftTwo : (Packet.userLeftServer 2).encode = some leftTwo.data := by decide

/-- User 2 leaves with an EOF while user 1 waits in its `select!`. -/
theorem run_eof : ∃ trace s c c', Run (Guarded distinctPeers.guard Step) ManagementServer.new trace s ∧
    s.connections.lookup 2 = some c ∧ c.phase = .returned .eof ∧
    s.connections.lookup 1 = some c' ∧ c'.phase = .select [] ∧ c'.cursor = 0 ∧
    c'.address = .v4 1 1 ∧ s.users.lookup (.v4 1 1) = some ⟨1,none,false,false,11⟩ ∧
    s.broadcasts = [leftTwo] := by
  let s₁ := ManagementServer.new.accept (.v4 1 1) 11
  let s₂ := s₁.accept (.v4 2 2) 22
  let u₁ : User := ⟨1,none,false,false,11⟩
  let u₂ : User := ⟨2,none,false,false,22⟩
  have h₁ : Run (Guarded distinctPeers.guard Step) ManagementServer.new
      [.accept (.v4 1 1) 11] s₁ := by
    refine .single ⟨?_,.accept (by decide)⟩
    intro id c hc
    simp [ManagementServer.new] at hc
  have h₂ : Run (Guarded distinctPeers.guard Step) ManagementServer.new
      [.accept (.v4 1 1) 11,.accept (.v4 2 2) 22] s₂ := by
    refine h₁.snoc ⟨?_,.accept (by decide)⟩
    intro id c hc
    change Finmap.lookup id (Finmap.insert _ _ _) = _ at hc
    rw [Table.lookup_insert_eq] at hc
    split at hc
    · cases hc
      simp
    · simp [ManagementServer.new] at hc
  have h₃ := h₂.snoc (guarded_step (show Step _ (.connect 1) _ from
    .connect (c := ⟨u₁,.v4 1 1,.spawned,0,[],[]⟩) rfl rfl) (by simp))
  have h₄ := h₃.snoc (guarded_step (show Step _ (.connect 2) _ from
    .connect (c := ⟨u₂,.v4 2 2,.spawned,0,[],[]⟩) rfl rfl) (by simp))
  have h₅ := h₄.snoc (guarded_step (show Step _ (.subscribe 1) _ from
    .subscribe (c := ⟨u₁,.v4 1 1,.connected,0,[],[]⟩) rfl rfl) (by simp))
  have h₆ := h₅.snoc (guarded_step (show Step _ (.subscribe 2) _ from
    .subscribe (c := ⟨u₂,.v4 2 2,.connected,0,[],[]⟩) rfl rfl) (by simp))
  have h₇ := h₆.snoc (guarded_step (show Step _ (.read 2 (.ok [])) _ from
    .read (c := ⟨u₂,.v4 2 2,.select [],0,[],[]⟩) rfl rfl (by decide)) (by simp))
  have h₈ := h₇.snoc (guarded_step (show Step _ (.exec 2 (.remove (.v4 2 2)) (some u₂)) _ from
    .exec rfl rfl rfl rfl) (by simp))
  have h₉ := h₈.snoc (guarded_step (show Step _ (.exec 2 (.encode (.userLeftServer 2)) leftTwo.data) _ from
    .exec rfl rfl encode_leftTwo rfl) (by simp))
  have h₁₀ := h₉.snoc (guarded_step (show Step _ (.exec 2 (.broadcast leftTwo) ()) _ from
    .exec rfl rfl trivial rfl) (by simp))
  exact ⟨_,_,_,_,h₁₀,rfl,rfl,rfl,rfl,rfl,rfl,rfl,rfl⟩

/-- User 2 is cleaned up. -/
theorem returned_cleaned_eof : ∃ trace s, Cleaned trace s 2 := by
  obtain ⟨trace,s,c,_,h,hc,hp,_⟩ := run_eof
  exact ⟨trace,s,((returned_cleaned_iff h hc hp).mpr (.inl rfl)).1⟩

/-- The write of that announcement to user 1 fails, and the record of user 1 stays. -/
theorem failed_broadcast_leaves_record : ∃ trace s c,
    Run (Guarded distinctPeers.guard Step) ManagementServer.new trace s ∧
    s.connections.lookup 1 = some c ∧ c.phase = .returned .broadcastWriteFailed ∧
    s.users.lookup (.v4 1 1) = some ⟨1,none,false,false,11⟩ ∧ ¬ Cleaned trace s 1 := by
  obtain ⟨trace,s,_,c,h,_,_,hc,hp,hcursor,haddr,hu,hlog⟩ := run_eof
  let c₁ : Connection := { c with
    phase := .ofProgram (handleRecv c.address [] (.ok leftTwo)), cursor := c.cursor + 1 }
  have hrecv : Step s (.recv 1 (.ok leftTwo)) (s.setConnection 1 c₁) :=
    .recv hc hp (by simp [hcursor,hlog]) (by simp [hlog,broadcastChannelCapacity])
  have hphase : c₁.phase = .running (.write leftTwo.data) fun written =>
      if written then .ret (.proceed []) else .ret (.exit .broadcastWriteFailed) :=
    congrArg Phase.ofProgram
      (handleRecv_sent c.address (rfl : leftTwo.shouldSendTo c.address = true) [])
  have hwrite : Step (s.setConnection 1 c₁) (.exec 1 (.write leftTwo.data) false) _ :=
    .exec (b := []) (Finmap.lookup_insert _) hphase trivial List.nil_prefix
  have h₂ := (h.snoc (guarded_step hrecv (by simp))).snoc (guarded_step hwrite (by simp))
  refine ⟨_,_,_,h₂,Finmap.lookup_insert _,rfl,hu,?_⟩
  intro hcleaned
  exact hcleaned.1 _ _ hu rfl

end VoiceApp.Management
