import VoiceApp.Sdk.Client

/-! # Connecting again

The send channel outlives the connections. A packet reaches the socket that was the newest
when it was sent into the channel, provided that every connect finds the channel empty and
no handler task running.
-/
namespace VoiceApp.Sdk
namespace Client
open Protocol
open TcpClient (Task)

/-- The sockets opened so far, and for every packet sent into the channel how many there
were at that time. -/
structure Homes where
  opened : ℕ
  sent : List ℕ

def Homes.observe (h : Homes) : Label → Homes
  | .connect => { h with opened := h.opened + 1 }
  | .send _ => { h with sent := h.sent ++ [h.opened] }
  | .sendMuteState .. => { h with sent := h.sent ++ [h.opened] }
  | _ => h

def homes (trace : Trace) : Homes := trace.foldl Homes.observe ⟨0,[]⟩

theorem homes_snoc (trace : Trace) (label : Label) :
    homes (trace ++ [label]) = (homes trace).observe label := by
  rw [homes,List.foldl_append]
  rfl

/-- Nothing is waiting in the channel and no task is running. -/
def Quiet (c : Client) : Prop := c.taken = c.sendTx.length ∧ ∀ t ∈ c.tasks, t.running = false

/-- Connects happen when the client is quiet. -/
def Cleanly (c : Client) : Label → Prop
  | .connect => c.Quiet
  | _ => True

/-- What is in the channel was sent to the newest socket, and only its task is running. -/
structure Clean (h : Homes) (c : Client) : Prop where
  opened : h.opened = c.tasks.length
  sent : h.sent.length = c.sendTx.length
  bounded : c.taken ≤ c.sendTx.length
  queued : ∀ i, c.taken ≤ i → i < c.sendTx.length → h.sent[i]? = some c.tasks.length
  newest : ∀ (k : ℕ) (t : Task), c.tasks[k]? = some t → t.running = true → k + 1 = c.tasks.length

theorem clean_new : Clean (homes []) new :=
  ⟨rfl,rfl,Nat.le_refl _,fun _ _ h => absurd h (Nat.not_lt_zero _),fun _ _ h => by cases h⟩

/-- A packet that is sent belongs to the newest socket. -/
theorem Clean.enqueue {h : Homes} {c c' : Client} {o : Outgoing} (hclean : Clean h c)
    (hsend : c'.sendTx = c.sendTx ++ [o]) (htaken : c'.taken = c.taken) (htasks : c'.tasks = c.tasks) :
    Clean { h with sent := h.sent ++ [h.opened] } c' := by
  refine ⟨?_,?_,?_,?_,?_⟩
  · rw [htasks]
    exact hclean.opened
  · rw [hsend,List.length_append,List.length_append,hclean.sent]
    rfl
  · rw [hsend,htaken,List.length_append]
    exact Nat.le_add_right_of_le hclean.bounded
  · intro i hi hlt
    rw [htaken] at hi
    rw [hsend,List.length_append,List.length_singleton] at hlt
    rw [htasks]
    by_cases hold : i < c.sendTx.length
    · rw [List.getElem?_append_left (by rw [hclean.sent]; exact hold)]
      exact hclean.queued i hi hold
    · have hlast : i = h.sent.length := by
        rw [hclean.sent]
        omega
      rw [hlast,List.getElem?_concat_length,hclean.opened]
  · rw [htasks]
    exact hclean.newest

/-- A task that goes on or stops keeps its place. -/
theorem Clean.task {h : Homes} {c c' : Client} {k : ℕ} {t t' : Task} (hclean : Clean h c)
    (ht : c.tasks[k]? = some t) (hrun : t.running = true) (hsend : c'.sendTx = c.sendTx)
    (htaken : c.taken ≤ c'.taken) (hbounded : c'.taken ≤ c.sendTx.length)
    (htasks : c'.tasks = c.tasks.set k t') : Clean h c' := by
  have hlen : c'.tasks.length = c.tasks.length := by rw [htasks,List.length_set]
  refine ⟨hclean.opened.trans hlen.symm,by rw [hsend]; exact hclean.sent,by rwa [hsend],?_,?_⟩
  · intro i hi hlt
    rw [hlen]
    exact hclean.queued i (htaken.trans hi) (by rwa [hsend] at hlt)
  · intro j u hu hrunning
    rw [hlen]
    by_cases hj : k = j
    · rw [← hj]
      exact hclean.newest k t ht hrun
    · rw [htasks,List.getElem?_set_ne hj] at hu
      exact hclean.newest j u hu hrunning

/-- A step of a call leaves the channel and the tasks alone. -/
theorem Clean.call {h : Homes} {c c' : Client} (hclean : Clean h c) (hsend : c'.sendTx = c.sendTx)
    (htaken : c'.taken = c.taken) (htasks : c'.tasks = c.tasks) : Clean h c' := by
  refine ⟨?_,?_,?_,?_,?_⟩
  · rw [htasks]
    exact hclean.opened
  · rw [hsend]
    exact hclean.sent
  · rw [hsend,htaken]
    exact hclean.bounded
  · rw [hsend,htaken,htasks]
    exact hclean.queued
  · rw [htasks]
    exact hclean.newest

theorem step_clean {h : Homes} {c c' : Client} {label : Label} (hclean : Clean h c)
    (hstep : Guarded Cleanly Step c label c') : Clean (h.observe label) c' := by
  obtain ⟨hquiet,hstep⟩ := hstep
  cases hstep with
  | connectFails => exact hclean
  | connect =>
    obtain ⟨hempty,hstopped⟩ := hquiet
    refine ⟨?_,hclean.sent,hclean.bounded,?_,?_⟩
    · change h.opened + 1 = (c.tasks ++ [_]).length
      rw [hclean.opened,List.length_append]
      rfl
    · intro i hi hlt
      have hi' : c.taken ≤ i := hi
      have hlt' : i < c.sendTx.length := hlt
      omega
    · intro k t ht hrun
      change k + 1 = (c.tasks ++ [_]).length
      rcases getElem?_concat_inv ht with hold | ⟨hlast,_⟩
      · rw [hstopped t (List.mem_of_getElem? hold)] at hrun
        cases hrun
      · rw [List.length_append,List.length_singleton,hlast]
  | authenticateVoice => exact hclean.call rfl rfl rfl
  | call => exact hclean.call rfl rfl rfl
  | send => exact hclean.enqueue rfl rfl rfl
  | sendMuteState => exact hclean.enqueue rfl rfl rfl
  | outgoing ht hrun ho =>
    exact hclean.task ht hrun rfl (Nat.le_succ _) (List.getElem?_eq_some_iff.mp ho).1 rfl
  | incoming ht hrun => exact hclean.task ht hrun rfl (Nat.le_refl _) hclean.bounded rfl
  | respond => exact hclean.call rfl rfl rfl
  | fail => exact hclean.call rfl rfl rfl

theorem run_clean {h : Homes} {c c' : Client} {trace : Trace} (hclean : Clean h c)
    (hr : Run (Guarded Cleanly Step) c trace c') : Clean (trace.foldl Homes.observe h) c' := by
  induction hr with
  | refl => exact hclean
  | snoc _ hs ih =>
    rw [List.foldl_append]
    exact step_clean ih hs

/-- The packet that a task takes was sent to its socket. -/
theorem Clean.home {h : Homes} {c c' : Client} {k : ℕ} {written : Bool} (hclean : Clean h c)
    (hstep : Step c (.outgoing k written) c') : h.sent[c.taken]? = some (k + 1) := by
  cases hstep with
  | outgoing ht hrun ho =>
    have hlt := (List.getElem?_eq_some_iff.mp ho).1
    rw [hclean.queued _ (Nat.le_refl _) hlt,hclean.newest k _ ht hrun]

/-- What the socket of the `k`-th connect has carried. -/
def wire (c : Client) (k : ℕ) : Bytes := ((c.tasks[k]?).map Task.written).getD []

theorem wire_set {c c' : Client} {k : ℕ} {t t' : Task} (ht : c.tasks[k]? = some t)
    (htasks : c'.tasks = c.tasks.set k t') (j : ℕ) :
    c'.wire j = if k = j then t'.written else c.wire j := by
  rw [wire,htasks]
  split
  · rename_i hj
    rw [← hj,List.getElem?_set_self (List.getElem?_eq_some_iff.mp ht).1]
    rfl
  · rename_i hj
    rw [List.getElem?_set_ne hj]
    rfl

/-- A socket carries what its own task takes from the channel, and nothing else. -/
theorem step_wire {c c' : Client} {label : Label} (hstep : Step c label c') (j : ℕ) :
    c'.wire j = c.wire j ∨ ∃ written o bytes, label = .outgoing j written ∧
      c.sendTx[c.taken]? = some o ∧ bytes <+: o.packet ∧ c'.wire j = c.wire j ++ bytes := by
  cases hstep with
  | connect =>
    left
    rw [wire,wire]
    change ((c.tasks ++ [Task.new])[j]?.map Task.written).getD [] = _
    by_cases hold : j < c.tasks.length
    · rw [List.getElem?_append_left hold]
    · rw [List.getElem?_append_right (Nat.le_of_not_lt hold),List.getElem?_singleton,
        List.getElem?_eq_none (Nat.le_of_not_lt hold)]
      split <;> rfl
  | @outgoing k t o written bytes ht hrun ho hb hw =>
    have hset : ({ c with taken := c.taken + 1 }.setTask k (t.outgoing o written bytes)).wire j =
        if k = j then (t.outgoing o written bytes).written else c.wire j := wire_set ht rfl j
    by_cases hj : k = j
    · right
      refine ⟨written,o,bytes,by rw [hj],ho,hb,?_⟩
      rw [hset,if_pos hj,wire,← hj,ht]
      rfl
    · left
      rw [hset,if_neg hj]
  | @incoming k t result ht =>
    left
    rw [wire_set (c := c) ht rfl j]
    split
    · rename_i hj
      rw [wire,← hj,ht,Task.incoming]
      split <;> rfl
    · rfl
  | _ => exact .inl rfl

/-- From a connect that was not clean on, some packet can go astray. -/
theorem Clean.astray {trace : Trace} {c : Client} (hclean : Clean (homes trace) c)
    (hnot : ¬c.Quiet) : ∃ more c₁ k c₂,
      Run Step { c with tasks := c.tasks ++ [.new] } more c₁ ∧ .connect ∉ more ∧
      Step c₁ (.outgoing k true) c₂ ∧
      (homes (trace ++ [.connect] ++ more)).sent[c₁.taken]? ≠ some (k + 1) := by
  have hnew : (c.tasks ++ [Task.new])[c.tasks.length]? = some Task.new :=
    List.getElem?_concat_length
  by_cases hempty : c.taken = c.sendTx.length
  · -- an older task takes the next packet
    obtain ⟨t,ht,hrun⟩ : ∃ t ∈ c.tasks, t.running ≠ false := by
      by_contra hall
      refine hnot ⟨hempty,fun t ht => ?_⟩
      by_contra hrun
      exact hall ⟨t,ht,hrun⟩
    obtain ⟨j,hj⟩ := List.mem_iff_getElem?.mp ht
    obtain ⟨data,hdata⟩ := Packet.plain_encodes (.userMuteState 0 true) rfl rfl
      (by simp [Packet.payloadLen])
    have hold : (c.tasks ++ [Task.new])[j]? = some t := getElem?_append_of_some hj _
    have ho : (c.sendTx ++ [⟨data,none⟩])[c.taken]? = some ⟨data,none⟩ := by
      rw [hempty,List.getElem?_concat_length]
    refine ⟨[.sendMuteState 0 true],_,j,_,.single (.sendMuteState hdata),by simp,
      .outgoing hold (eq_true_of_ne_false hrun) ho (List.prefix_refl _) fun _ => rfl,?_⟩
    change (homes (trace ++ [.connect] ++ [.sendMuteState 0 true])).sent[c.taken]? ≠ _
    rw [homes_snoc,homes_snoc]
    change ((homes trace).sent ++ [(homes trace).opened + 1])[c.taken]? ≠ _
    rw [hempty,← hclean.sent,List.getElem?_concat_length,hclean.opened]
    intro heq
    have hsame := Option.some.inj heq
    have hlt := (List.getElem?_eq_some_iff.mp hj).1
    omega
  · -- the new task takes an old packet
    have hlt : c.taken < c.sendTx.length := Nat.lt_of_le_of_ne hclean.bounded hempty
    refine ⟨[],_,c.tasks.length,_,.refl,by simp,
      .outgoing hnew rfl (List.getElem?_eq_getElem hlt) (List.prefix_refl _) fun _ => rfl,?_⟩
    change (homes (trace ++ [.connect] ++ [])).sent[c.taken]? ≠ _
    rw [List.append_nil,homes_snoc]
    change (homes trace).sent[c.taken]? ≠ _
    rw [hclean.queued _ (Nat.le_refl _) hlt]
    intro heq
    have hsame := Option.some.inj heq
    omega

/-- In every run whose connects happen while the channel is empty and no handler task is
running, a packet is taken and written only by the task of the socket that was the newest
when the packet was sent. A connect that does not meet this leads to a run in which a
packet goes elsewhere, with no further connect. -/
theorem reconnects_cleanly {trace : Trace} {c : Client}
    (hr : Run (Guarded Cleanly Step) Client.new trace c) :
    (∀ label c', Step c label c' →
      (∀ k written, label = .outgoing k written → (homes trace).sent[c.taken]? = some (k + 1)) ∧
      ∀ k, c'.wire k = c.wire k ∨ ∃ written o bytes, label = .outgoing k written ∧
        c.sendTx[c.taken]? = some o ∧ bytes <+: o.packet ∧ c'.wire k = c.wire k ++ bytes) ∧
    (c.Quiet ↔ ∀ more c₁ k written c₂,
      Run Step { c with tasks := c.tasks ++ [.new] } more c₁ → .connect ∉ more →
      Step c₁ (.outgoing k written) c₂ →
        (homes (trace ++ [.connect] ++ more)).sent[c₁.taken]? = some (k + 1)) := by
  have hclean : Clean (homes trace) c := run_clean clean_new hr
  refine ⟨fun label c' hstep => ⟨?_,step_wire hstep⟩,?_,?_⟩
  · rintro k written rfl
    exact hclean.home hstep
  · intro hquiet more c₁ k written c₂ hmore hnone hstep
    have hconnected : Clean (homes (trace ++ [.connect])) { c with tasks := c.tasks ++ [.new] } := by
      rw [homes_snoc]
      exact step_clean hclean ⟨hquiet,.connect⟩
    have hguarded : ∀ {more : Trace} {c₁ : Client},
        Run Step { c with tasks := c.tasks ++ [.new] } more c₁ → .connect ∉ more →
        Run (Guarded Cleanly Step) { c with tasks := c.tasks ++ [.new] } more c₁ := by
      intro more c₁ hmore
      induction hmore with
      | refl => exact fun _ => .refl
      | @snoc more t label u _ hs ih =>
        intro hnone
        rw [List.mem_append,not_or] at hnone
        refine (ih hnone.1).snoc ⟨?_,hs⟩
        cases label with
        | connect => exact (hnone.2 List.mem_cons_self).elim
        | _ => trivial
    have hall := run_clean hconnected (hguarded hmore hnone)
    rw [homes,List.foldl_append]
    exact hall.home hstep
  · intro hall
    by_contra hnot
    obtain ⟨more,c₁,k,c₂,hmore,hnone,hstep,hastray⟩ := hclean.astray hnot
    exact hastray (hall more c₁ k true c₂ hmore hnone hstep)

/-- The packets of two connections, the first of which is lost before the second one. -/
theorem reconnects_cleanly_second : ∃ trace c c', Run (Guarded Cleanly Step) Client.new
      (trace ++ [.incoming 0 none,.connect,.sendMuteState 1 false]) c ∧
    Step c (.outgoing 1 true) c' ∧
      (homes (trace ++ [.incoming 0 none,.connect,.sendMuteState 1 false])).sent[c.taken]? = some 2 := by
  have hon : (Packet.userMuteState 1 true).encode = some [70,0,9,0,0,0,0,0,0,0,1,1] := by decide
  have hoff : (Packet.userMuteState 1 false).encode = some [70,0,9,0,0,0,0,0,0,0,1,0] := by decide
  have hwrite : ∀ {c : Client} {k t o}, c.tasks[k]? = some t → t.running = true →
      c.sendTx[c.taken]? = some o → Step c (.outgoing k true) _ :=
    fun ht hrun ho => .outgoing ht hrun ho (List.prefix_refl _) fun _ => rfl
  have hmuted : Run (Guarded Cleanly Step) Client.new [.connect,.sendMuteState 1 true] _ :=
    .snoc (.snoc .refl ⟨⟨rfl,by simp [new]⟩,.connect⟩) ⟨trivial,.sendMuteState hon⟩
  have hwritten : Run (Guarded Cleanly Step) Client.new [.connect,.sendMuteState 1 true,.outgoing 0 true] _ :=
    hmuted.snoc ⟨trivial,hwrite rfl rfl rfl⟩
  have hlost : Run (Guarded Cleanly Step) Client.new
      [.connect,.sendMuteState 1 true,.outgoing 0 true,.incoming 0 none] _ :=
    hwritten.snoc ⟨trivial,.incoming rfl rfl (Nat.zero_le _)⟩
  have hquiet : ∀ t : Task, t.running = false → ∀ t' ∈ [t], t'.running = false := by simp
  have hconnected : Run (Guarded Cleanly Step) Client.new
      [.connect,.sendMuteState 1 true,.outgoing 0 true,.incoming 0 none,.connect] _ :=
    hlost.snoc ⟨⟨rfl,hquiet _ rfl⟩,.connect⟩
  have hr : Run (Guarded Cleanly Step) Client.new ([.connect,.sendMuteState 1 true,.outgoing 0 true] ++
      [.incoming 0 none,.connect,.sendMuteState 1 false]) _ :=
    hconnected.snoc ⟨trivial,.sendMuteState hoff⟩
  have hhome := fun c' hstep => ((reconnects_cleanly hr).1 (.outgoing 1 true) c' hstep).1 1 true rfl
  exact ⟨_,_,_,hr,hwrite rfl rfl rfl,hhome _ (hwrite rfl rfl rfl)⟩

/-- A ping that was sent before the first connect goes to the first socket. -/
theorem early_ping_is_written : ¬∀ trace c k written c', Run Step Client.new trace c →
    Step c (.outgoing k written) c' → (homes trace).sent[c.taken]? = some (k + 1) := by
  intro h
  have hr : Run Step Client.new [.call .ping,.send 0,.connect] _ :=
    .snoc (.snoc (.snoc .refl (.call (by decide))) (.send rfl rfl
      (show (Packet.pingRequest 1).encode = some [6,0,8,0,0,0,0,0,0,0,1] by decide))) .connect
  have hhome := h _ _ 0 true _ hr (.outgoing rfl rfl rfl (List.prefix_refl _) fun _ => rfl)
  revert hhome
  decide

end Client
end VoiceApp.Sdk
