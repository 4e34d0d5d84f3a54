import VoiceApp.Sdk.Client

/-! # Calls and the responses they get

On one connection every request id belongs to one call, so that the map of pending
responses leads each response to the call that has sent the id, and to no other.
-/
namespace VoiceApp.Sdk
open Protocol Framing
open TcpClient (Task Handler)

/-! ## The pending responses -/

/-- What a handler holds, against the callbacks registered with it so far. -/
structure Matching (registered : List (UInt64 × Oneshot)) (c : Handler) : Prop where
  waiting : ∀ {id tx}, c.pendingResponses.waiting.lookup id = some tx → (id,tx) ∈ registered
  answered : ∀ {tx packet}, (tx,packet) ∈ c.pendingResponses.answered →
    ∃ id, packet.requestId = some id ∧ (id,tx) ∈ registered
  apart : ∀ {id tx packet}, c.pendingResponses.waiting.lookup id = some tx →
    (tx,packet) ∉ c.pendingResponses.answered
  once : (c.pendingResponses.answered.map Prod.fst).Nodup
  order : (c.pendingResponses.answered.map Prod.snd).Sublist c.packetTx

namespace Matching
variable {registered : List (UInt64 × Oneshot)} {c : Handler}

theorem new : Matching [] .new := by
  refine ⟨fun h => ?_,fun h => ?_,fun h => ?_,List.nodup_nil,List.nil_sublist _⟩
  · simp [Handler.new,Pending.new] at h
  · cases h
  · simp [Handler.new,Pending.new] at h

/-- A callback whose channel is new is registered. -/
theorem register (h : Matching registered c) {id : UInt64} {tx : Oneshot}
    (hnew : tx ∉ registered.map Prod.snd) :
    Matching (registered ++ [(id,tx)])
      { c with pendingResponses := c.pendingResponses.register id tx } := by
  have hlookup : ∀ id', (c.pendingResponses.waiting.insert id tx).lookup id' =
      if id' = id then some tx else c.pendingResponses.waiting.lookup id' :=
    fun id' => Table.lookup_insert_eq _ _ _ _
  refine ⟨?_,?_,?_,h.once,h.order⟩
  · intro id' tx' hwait
    change (c.pendingResponses.waiting.insert id tx).lookup id' = some tx' at hwait
    rw [hlookup] at hwait
    split at hwait
    · rename_i hid
      cases hwait
      rw [hid]
      exact List.mem_append_right _ List.mem_cons_self
    · exact List.mem_append_left _ (h.waiting hwait)
  · intro tx' packet hanswered
    obtain ⟨id',hid,hmem⟩ := h.answered hanswered
    exact ⟨id',hid,List.mem_append_left _ hmem⟩
  · intro id' tx' packet hwait hanswered
    change (c.pendingResponses.waiting.insert id tx).lookup id' = some tx' at hwait
    rw [hlookup] at hwait
    split at hwait
    · cases hwait
      obtain ⟨id'',_,hmem⟩ := h.answered hanswered
      exact hnew (List.mem_map_of_mem hmem)
    · exact h.apart hwait hanswered

/-- A packet is handed on: it completes the channel waiting under its id, if there is one. -/
theorem deliver (h : Matching registered c) (hdistinct : (registered.map Prod.snd).Nodup)
    (packet : Packet) : Matching registered (c.handOn [packet]) := by
  have hpass : c.pendingResponses.resolve packet.requestId packet = (c.pendingResponses,false) →
      Matching registered (c.handOn [packet]) := by
    intro hresolve
    have hsame : c.handOn [packet] = { c with packetTx := c.packetTx ++ [packet] } := by
      change { c with
        pendingResponses := (c.pendingResponses.resolve packet.requestId packet).1
        packetTx := c.packetTx ++ [packet] } = _
      rw [hresolve]
    rw [hsame]
    exact ⟨h.waiting,h.answered,h.apart,h.once,h.order.trans (List.sublist_append_left _ _)⟩
  cases hid : packet.requestId with
  | none =>
    refine hpass ?_
    rw [hid]
    rfl
  | some id =>
    cases hwait : c.pendingResponses.waiting.lookup id with
    | none =>
      refine hpass ?_
      rw [hid,Pending.resolve,hwait]
    | some tx =>
      have hdone : c.handOn [packet] = { c with
          pendingResponses := ⟨c.pendingResponses.waiting.erase id,
            c.pendingResponses.answered ++ [(tx,packet)]⟩
          packetTx := c.packetTx ++ [packet] } := by
        change { c with
          pendingResponses := (c.pendingResponses.resolve packet.requestId packet).1
          packetTx := c.packetTx ++ [packet] } = _
        rw [hid,Pending.resolve,hwait]
      have hkept : ∀ {id' tx'}, (c.pendingResponses.waiting.erase id).lookup id' = some tx' →
          id' ≠ id ∧ c.pendingResponses.waiting.lookup id' = some tx' := by
        intro id' tx' hlookup
        rw [Table.lookup_erase_eq] at hlookup
        split at hlookup
        · cases hlookup
        · exact ⟨‹_›,hlookup⟩
      rw [hdone]
      refine ⟨fun hlookup => h.waiting (hkept hlookup).2,?_,?_,?_,?_⟩
      · intro tx' packet' hmem
        rcases List.mem_append.mp hmem with hmem | hmem
        · exact h.answered hmem
        · cases List.mem_singleton.mp hmem
          exact ⟨id,hid,h.waiting hwait⟩
      · intro id' tx' packet' hlookup hmem
        obtain ⟨hne,hwait'⟩ := hkept hlookup
        rcases List.mem_append.mp hmem with hmem | hmem
        · exact h.apart hwait' hmem
        · cases List.mem_singleton.mp hmem
          -- a channel is registered under one id only
          have hsame := List.inj_on_of_nodup_map hdistinct (h.waiting hwait') (h.waiting hwait) rfl
          cases hsame
          exact hne rfl
      · rw [List.map_append,List.nodup_append]
        refine ⟨h.once,List.nodup_singleton _,?_⟩
        rintro tx' hmem tx'' hlast rfl
        cases List.mem_singleton.mp hlast
        obtain ⟨⟨tx',packet'⟩,hmem',rfl⟩ := List.mem_map.mp hmem
        exact h.apart hwait hmem'
      · rw [List.map_append]
        exact h.order.append (List.Sublist.refl _)

theorem handOn (h : Matching registered c) (hdistinct : (registered.map Prod.snd).Nodup)
    (packets : List Packet) : Matching registered (c.handOn packets) := by
  induction packets generalizing c with
  | nil => exact h
  | cons packet rest ih =>
    rw [Handler.handOn_cons]
    exact ih (h.deliver hdistinct packet)

/-- The accumulator plays no part in it. -/
theorem accumulate (h : Matching registered c) (accumulator : Bytes) :
    Matching registered { c with accumulator := accumulator } :=
  ⟨h.waiting,h.answered,h.apart,h.once,h.order⟩

end Matching

/-! ## The calls -/

/-- What identifies a call. -/
def Call.key (call : Call) : Api × UInt64 := (call.api,call.requestId)

/-- What was sent into the channel is a mute event, or the request of a call under its id. -/
def Origin (keys : List (Api × UInt64)) (o : Outgoing) : Prop :=
  (o.callback = none ∧ ∃ userId isMuted, (Packet.userMuteState userId isMuted).encode = some o.packet) ∨
  ∃ (n : ℕ) (api : Api) (id : UInt64), keys[n]? = some (api,id) ∧ o.callback = some (id,n) ∧
    (api.request id).encode = some o.packet

theorem Origin.mono {keys more : List (Api × UInt64)} {o : Outgoing} (h : Origin keys o) :
    Origin (keys ++ more) o := by
  rcases h with h | ⟨n,api,id,hkey,hcallback,hpacket⟩
  · exact .inl h
  · exact .inr ⟨n,api,id,getElem?_append_of_some hkey more,hcallback,hpacket⟩

/-- A mute event, or the request of a call. -/
def Asks (keys : List (Api × UInt64)) (packet : Packet) : Prop :=
  (∃ userId isMuted, packet = .userMuteState userId isMuted) ∨
  ∃ (n : ℕ) (api : Api) (id : UInt64), keys[n]? = some (api,id) ∧ packet = api.request id

theorem Api.request_requestId (api : Api) (id : UInt64) : (api.request id).requestId = some id := by
  cases api <;> rfl

theorem Origin.asks {keys : List (Api × UInt64)} {o : Outgoing} (h : Origin keys o) :
    ∃ packet, packet.encode = some o.packet ∧ Asks keys packet ∧
      packet.requestId = o.callback.map Prod.fst := by
  rcases h with ⟨hnone,userId,isMuted,hpacket⟩ | ⟨n,api,id,hkey,hsome,hpacket⟩
  · refine ⟨_,hpacket,.inl ⟨userId,isMuted,rfl⟩,?_⟩
    rw [hnone]
    rfl
  · refine ⟨_,hpacket,.inr ⟨n,api,id,hkey,rfl⟩,?_⟩
    rw [hsome,api.request_requestId]
    rfl

/-- What goes through the channel is a sequence of whole packets. -/
theorem origins_ask {keys : List (Api × UInt64)} {sent : List Outgoing} (h : ∀ o ∈ sent, Origin keys o) :
    ∃ packets, Framer.Encoded Packet.encode packets (sent.map Outgoing.packet) ∧
      (∀ packet ∈ packets, Asks keys packet) ∧
      packets.filterMap Packet.requestId = (sent.filterMap Outgoing.callback).map Prod.fst := by
  induction sent with
  | nil => exact ⟨[],.nil,by simp,rfl⟩
  | cons o rest ih =>
    obtain ⟨packet,hencode,hasks,hid⟩ := (h o List.mem_cons_self).asks
    obtain ⟨packets,hencoded,hall,hids⟩ := ih fun o' ho' => h o' (List.mem_cons_of_mem o ho')
    refine ⟨packet :: packets,.cons hencode hencoded,List.forall_mem_cons.mpr ⟨hasks,hall⟩,?_⟩
    cases hcallback : o.callback with
    | none =>
      rw [hcallback] at hid
      rw [List.filterMap_cons_none hid,List.filterMap_cons_none hcallback,hids]
    | some entry =>
      rw [hcallback] at hid
      rw [List.filterMap_cons_some hid,List.filterMap_cons_some hcallback,hids]
      rfl

namespace Client

def keys (c : Client) : List (Api × UInt64) := c.calls.map Call.key

/-- The callbacks of these packets. -/
abbrev callbacks (sent : List Outgoing) : List (UInt64 × Oneshot) := sent.filterMap Outgoing.callback

/-- The request ids of the calls differ, and a call is sent at most once, under its id. -/
structure Sending (c : Client) : Prop where
  ids : (c.keys.map Prod.snd).Nodup
  below : ∀ key ∈ c.keys, key.2.toNat < c.requestIdCounter.toNat
  origin : ∀ o ∈ c.sendTx, Origin c.keys o
  oneshots : ((callbacks c.sendTx).map Prod.snd).Nodup
  drawn : ∀ {n : ℕ} {call : Call}, c.calls[n]? = some call → call.phase = .drawn →
    n ∉ (callbacks c.sendTx).map Prod.snd
  bounded : c.taken ≤ c.sendTx.length

theorem sending_new : Sending new where
  ids := List.nodup_nil
  below _ h := by cases h
  origin _ h := by cases h
  oneshots := List.nodup_nil
  drawn h := by cases h
  bounded := Nat.le_refl _

/-- A callback is that of a call. -/
theorem Sending.callback {c : Client} (h : c.Sending) {id : UInt64} {n : ℕ}
    (hmem : (id,n) ∈ callbacks c.sendTx) : ∃ api, c.keys[n]? = some (api,id) := by
  obtain ⟨o,ho,hcallback⟩ := List.mem_filterMap.mp hmem
  rcases h.origin o ho with ⟨hnone,_⟩ | ⟨m,api,id',hkey,hsome,_⟩
  · rw [hnone] at hcallback
    cases hcallback
  · cases hsome.symm.trans hcallback
    exact ⟨api,hkey⟩

theorem Sending.oneshot_lt {c : Client} (h : c.Sending) {n : ℕ}
    (hn : n ∈ (callbacks c.sendTx).map Prod.snd) : n < c.calls.length := by
  obtain ⟨⟨id,n'⟩,hmem,rfl⟩ := List.mem_map.mp hn
  obtain ⟨api,hkey⟩ := h.callback hmem
  have hlt := (List.getElem?_eq_some_iff.mp hkey).1
  rwa [keys,List.length_map] at hlt

/-- A call that changes its phase stays the call it is. -/
theorem keys_setCall {c : Client} {n : ℕ} {call call' : Call} (hc : c.calls[n]? = some call)
    (hkey : call'.key = call.key) : (c.setCall n call').keys = c.keys := by
  change (c.calls.set n call').map Call.key = c.calls.map Call.key
  obtain ⟨hlt,rfl⟩ := List.getElem?_eq_some_iff.mp hc
  rw [List.map_set,hkey]
  refine List.ext_getElem? fun m => ?_
  by_cases hm : n = m
  · rw [← hm,List.getElem?_set_self (by rwa [List.length_map]),List.getElem?_map,hc]
    rfl
  · rw [List.getElem?_set_ne hm]

/-- A step that draws no id and sends nothing. -/
theorem Sending.quiet {c c' : Client} (h : c.Sending) (hkeys : c'.keys = c.keys)
    (hcounter : c'.requestIdCounter = c.requestIdCounter) (hsend : c'.sendTx = c.sendTx)
    (htaken : c'.taken ≤ c.sendTx.length)
    (hdrawn : ∀ {n : ℕ} {call : Call}, c'.calls[n]? = some call → call.phase = .drawn →
      c.calls[n]? = some call) : c'.Sending := by
  refine ⟨by rw [hkeys]; exact h.ids,by rw [hkeys,hcounter]; exact h.below,
    by rw [hkeys,hsend]; exact h.origin,by rw [hsend]; exact h.oneshots,?_,by rwa [hsend]⟩
  intro n call hc hp
  rw [hsend]
  exact h.drawn (hdrawn hc hp) hp

/-- The phase of a call that is not drawn may change. -/
theorem drawn_setCall {c : Client} {n : ℕ} {call' : Call} (hne : call'.phase ≠ .drawn) {m : ℕ} {call : Call}
    (hc : (c.setCall n call').calls[m]? = some call) (hp : call.phase = .drawn) :
    n ≠ m ∧ c.calls[m]? = some call := by
  change (c.calls.set n call')[m]? = some call at hc
  by_cases hm : n = m
  · rw [List.getElem?_set,if_pos hm] at hc
    split at hc
    · cases hc
      exact (hne hp).elim
    · cases hc
  · rw [List.getElem?_set_ne hm] at hc
    exact ⟨hm,hc⟩

/-- A request id is drawn, for a call or for something else. -/
theorem Sending.draws {c c' : Client} (h : c.Sending) (hid : c.requestIdCounter.toNat + 1 < 2 ^ 64)
    (hcounter : c'.requestIdCounter = c.requestIdCounter + 1) (hsend : c'.sendTx = c.sendTx)
    (htaken : c'.taken = c.taken) {new : List Call} (hcalls : c'.calls = c.calls ++ new)
    (hnew : (new.map Call.requestId).Sublist [c.requestIdCounter]) : c'.Sending := by
  have hkeys : c'.keys = c.keys ++ new.map Call.key := by
    rw [keys,hcalls,List.map_append]
    rfl
  have hids : (new.map Call.key).map Prod.snd = new.map Call.requestId := List.map_map
  refine ⟨?_,?_,?_,by rw [hsend]; exact h.oneshots,?_,by rw [hsend,htaken]; exact h.bounded⟩
  · rw [hkeys,List.map_append,hids,List.nodup_append]
    refine ⟨h.ids,hnew.nodup (List.nodup_singleton _),?_⟩
    rintro id hmem id' hlast rfl
    cases List.mem_singleton.mp (hnew.subset hlast)
    obtain ⟨key,hkey,hid'⟩ := List.mem_map.mp hmem
    have hlt := h.below key hkey
    rw [hid'] at hlt
    exact Nat.lt_irrefl _ hlt
  · intro key hkey
    rw [hcounter,BigEndian.toNat_succ hid]
    rw [hkeys] at hkey
    rcases List.mem_append.mp hkey with hkey | hkey
    · exact Nat.lt_succ_of_lt (h.below key hkey)
    · have hlast : key.2 ∈ new.map Call.requestId := by
        rw [← hids]
        exact List.mem_map_of_mem hkey
      rw [List.mem_singleton.mp (hnew.subset hlast)]
      exact Nat.lt_succ_self _
  · intro o ho
    rw [hsend] at ho
    rw [hkeys]
    exact (h.origin o ho).mono
  · intro n call hc hp
    rw [hsend]
    rw [hcalls] at hc
    by_cases hold : n < c.calls.length
    · rw [List.getElem?_append_left hold] at hc
      exact h.drawn hc hp
    · exact fun hn => hold (h.oneshot_lt hn)

/-- A call sends its request. -/
theorem Sending.send {c : Client} (h : c.Sending) {n : ℕ} {call : Call} {data : Bytes}
    (hc : c.calls[n]? = some call) (hp : call.phase = .drawn) (he : call.request.encode = some data) :
    ((c.setCall n { call with phase := .waiting }).enqueue ⟨data,some (call.requestId,n)⟩).Sending := by
  have hkeys : ((c.setCall n { call with phase := .waiting }).enqueue
      ⟨data,some (call.requestId,n)⟩).keys = c.keys := keys_setCall hc rfl
  have hcallbacks : (callbacks (c.sendTx ++ [⟨data,some (call.requestId,n)⟩])).map Prod.snd =
      (callbacks c.sendTx).map Prod.snd ++ [n] := by
    simp [callbacks,List.filterMap_append]
  refine ⟨by rw [hkeys]; exact h.ids,by rw [hkeys]; exact h.below,?_,?_,?_,?_⟩
  · intro o ho
    rw [hkeys]
    rcases List.mem_append.mp ho with ho | ho
    · exact h.origin o ho
    · rw [List.mem_singleton.mp ho]
      refine .inr ⟨n,call.api,call.requestId,?_,rfl,he⟩
      rw [keys,List.getElem?_map,hc]
      rfl
  · change ((callbacks (c.sendTx ++ [_])).map Prod.snd).Nodup
    rw [hcallbacks,List.nodup_append]
    refine ⟨h.oneshots,List.nodup_singleton _,?_⟩
    rintro m hmem m' hlast rfl
    cases List.mem_singleton.mp hlast
    exact h.drawn hc hp hmem
  · intro m call' hc' hp'
    obtain ⟨hne,hc'⟩ := drawn_setCall (c := c) (n := n) (by simp) hc' hp'
    change m ∉ (callbacks (c.sendTx ++ [_])).map Prod.snd
    rw [hcallbacks,List.mem_append,List.mem_singleton]
    rintro (hold | rfl)
    · exact h.drawn hc' hp' hold
    · exact hne rfl
  · change c.taken ≤ (c.sendTx ++ [_]).length
    rw [List.length_append]
    exact Nat.le_add_right_of_le h.bounded

/-- A mute event is sent; nobody waits for an answer. -/
theorem Sending.sendMuteState {c : Client} (h : c.Sending) {userId : UInt64} {isMuted : Bool} {data : Bytes}
    (he : (Packet.userMuteState userId isMuted).encode = some data) :
    (c.enqueue ⟨data,none⟩).Sending := by
  have hcallbacks : callbacks (c.sendTx ++ [⟨data,none⟩]) = callbacks c.sendTx := by
    simp [callbacks,List.filterMap_append]
  refine ⟨h.ids,h.below,?_,?_,?_,?_⟩
  · intro o ho
    rcases List.mem_append.mp ho with ho | ho
    · exact h.origin o ho
    · rw [List.mem_singleton.mp ho]
      exact .inl ⟨rfl,userId,isMuted,he⟩
  · change ((callbacks (c.sendTx ++ [_])).map Prod.snd).Nodup
    rw [hcallbacks]
    exact h.oneshots
  · intro n call hc hp
    change n ∉ (callbacks (c.sendTx ++ [_])).map Prod.snd
    rw [hcallbacks]
    exact h.drawn hc hp
  · change c.taken ≤ (c.sendTx ++ [_]).length
    rw [List.length_append]
    exact Nat.le_add_right_of_le h.bounded

theorem step_sending {c c' : Client} {label : Label} (h : c.Sending) (hstep : Step c label c') :
    c'.Sending := by
  cases hstep with
  | connectFails => exact h
  | connect => exact h.quiet rfl rfl rfl h.bounded fun hc _ => hc
  | authenticateVoice hid =>
    exact h.draws hid rfl rfl rfl (List.append_nil _).symm (List.nil_sublist _)
  | call hid => exact h.draws hid rfl rfl rfl rfl (List.Sublist.refl _)
  | send hc hp he => exact h.send hc hp he
  | sendMuteState he => exact h.sendMuteState he
  | outgoing ht hrun ho =>
    exact h.quiet rfl rfl rfl (List.getElem?_eq_some_iff.mp ho).1 fun hc _ => hc
  | incoming => exact h.quiet rfl rfl rfl h.bounded fun hc _ => hc
  | respond hc =>
    exact h.quiet (keys_setCall hc rfl) rfl rfl h.bounded
      fun hc' hp' => (drawn_setCall (by simp) hc' hp').2
  | fail hc =>
    exact h.quiet (keys_setCall hc rfl) rfl rfl h.bounded
      fun hc' hp' => (drawn_setCall (by simp) hc' hp').2

/-- Calls with the same id are the same call. -/
theorem Sending.unique {c : Client} (h : c.Sending) {n n' : ℕ} {api api' : Api} {id : UInt64}
    (hn : c.keys[n]? = some (api,id)) (hn' : c.keys[n']? = some (api',id)) : n = n' := by
  have hid : ∀ {m : ℕ} {a : Api}, c.keys[m]? = some (a,id) → (c.keys.map Prod.snd)[m]? = some id := by
    intro m a hm
    rw [List.getElem?_map,hm]
    rfl
  have hlt := (List.getElem?_eq_some_iff.mp (hid hn)).1
  exact (List.getElem?_inj hlt h.ids).mp ((hid hn).trans (hid hn').symm)

/-- No request id is sent twice. -/
theorem Sending.ids_sent {c : Client} (h : c.Sending) : ((callbacks c.sendTx).map Prod.fst).Nodup := by
  refine List.Nodup.map_on ?_ (List.Nodup.of_map Prod.snd h.oneshots)
  rintro ⟨id,n⟩ hmem ⟨id',n'⟩ hmem' hid
  obtain rfl : id = id' := hid
  obtain ⟨api,hkey⟩ := h.callback hmem
  obtain ⟨api',hkey'⟩ := h.callback hmem'
  rw [h.unique hkey hkey']

end Client

/-! ## The handler task of the only connection -/

theorem Handler.answered_handOn (c : Handler) (packets : List Packet) :
    c.pendingResponses.answered <+: (c.handOn packets).pendingResponses.answered := by
  induction packets generalizing c with
  | nil => exact List.prefix_refl _
  | cons packet rest ih =>
    rw [Handler.handOn_cons]
    refine List.IsPrefix.trans ?_ (ih _)
    change _ <+: (c.pendingResponses.resolve packet.requestId packet).1.answered
    rw [Pending.resolve.eq_def]
    split
    · exact List.prefix_refl _
    · split
      · exact List.prefix_append _ _
      · exact List.prefix_refl _

/-- What a task has taken from the channel and read, against its handler. -/
structure Talks (sent : List Outgoing) (t : Task) : Prop where
  matching : Matching (Client.callbacks sent) t.handler
  written : t.written = (sent.map Outgoing.packet).flatten
  received : ∃ reads, reads.flatten = t.received ∧
    Packet.framer.feedAll reads = (t.handler.packetTx,t.handler.accumulator)

namespace Talks
variable {sent : List Outgoing} {t : Task}

theorem new : Talks [] .new := ⟨.new,rfl,[],rfl,rfl⟩

/-- The next packet of the channel is written whole. -/
theorem outgoing {o : Outgoing} (h : Talks sent t)
    (hnew : ∀ id tx, o.callback = some (id,tx) → tx ∉ (Client.callbacks sent).map Prod.snd) :
    Talks (sent ++ [o]) (t.outgoing o true o.packet) := by
  refine ⟨?_,?_,?_⟩
  · change Matching (List.filterMap Outgoing.callback (sent ++ [o])) (TcpClient.handleOutgoing t.handler o)
    rw [List.filterMap_append]
    cases ho : o.callback with
    | none =>
      rw [TcpClient.handleOutgoing,ho]
      simpa [ho] using h.matching
    | some entry =>
      obtain ⟨id,tx⟩ := entry
      rw [TcpClient.handleOutgoing,ho]
      simpa [ho] using h.matching.register (hnew id tx ho)
  · change t.written ++ o.packet = _
    rw [h.written,List.map_append,List.flatten_append]
    simp
  · obtain ⟨reads,hreceived,hfeed⟩ := h.received
    refine ⟨reads,hreceived,?_⟩
    rw [hfeed]
    change _ = ((TcpClient.handleOutgoing t.handler o).packetTx,
      (TcpClient.handleOutgoing t.handler o).accumulator)
    rw [TcpClient.handleOutgoing]
    split <;> rfl

/-- A read hands on the packets it completes. -/
theorem incoming (h : Talks sent t) (hdistinct : ((Client.callbacks sent).map Prod.snd).Nodup)
    (result : Option Bytes) : Talks sent (t.incoming result) := by
  cases result with
  | none => exact ⟨h.matching,h.written,h.received⟩
  | some bytes =>
    by_cases hne : bytes = []
    · rw [hne]
      refine ⟨h.matching,h.written,?_⟩
      change ∃ reads : List Bytes, reads.flatten = t.received ++ [] ∧ _
      rw [List.append_nil]
      exact h.received
    · rw [Task.incoming,TcpClient.handleIncoming_some hne]
      refine ⟨(h.matching.handOn hdistinct _).accumulate _,h.written,?_⟩
      obtain ⟨reads,hreceived,hfeed⟩ := h.received
      refine ⟨reads ++ [bytes],?_,?_⟩
      · rw [List.flatten_append,List.flatten_singleton,hreceived]
        rfl
      · rw [Packet.framer.feedAll_concat,hfeed]
        change (_,_) = (_,_)
        rw [Handler.handOn_packetTx]

end Talks

/-- A read takes no answer back. -/
theorem answered_incoming (t : Task) (result : Option Bytes) :
    t.handler.pendingResponses.answered <+: (t.incoming result).handler.pendingResponses.answered := by
  cases result with
  | none => exact List.prefix_refl _
  | some bytes =>
    by_cases hne : bytes = []
    · rw [hne]
      exact List.prefix_refl _
    · rw [Task.incoming,TcpClient.handleIncoming_some hne]
      exact Handler.answered_handOn _ _

theorem answered_outgoing (t : Task) (o : Outgoing) (written : Bool) (bytes : Bytes) :
    (t.outgoing o written bytes).handler.pendingResponses.answered =
      t.handler.pendingResponses.answered := by
  change (TcpClient.handleOutgoing t.handler o).pendingResponses.answered = _
  rw [TcpClient.handleOutgoing]
  split <;> rfl

namespace Client

/-- There is one connect at most, and no write fails. -/
def OneConnection (c : Client) : Label → Prop
  | .connect => c.tasks = []
  | .outgoing _ written => written = true
  | _ => True

/-- No task has started, or the only one has taken everything that is taken. -/
def Connected (c : Client) : Prop :=
  (c.tasks = [] ∧ c.taken = 0) ∨ ∃ t, c.tasks = [t] ∧ Talks (c.sendTx.take c.taken) t

/-- A call that came back with a packet was given it by a task. -/
def Given (c : Client) : Prop :=
  ∀ (n : ℕ) (call : Call) (packet : Packet), c.calls[n]? = some call →
    call.phase = .returned (some packet) →
    ∃ t ∈ c.tasks, (n,packet) ∈ t.handler.pendingResponses.answered

/-- The task at some place is the only one. -/
theorem Connected.only {c : Client} (h : c.Connected) {k : ℕ} {t : Task} (ht : c.tasks[k]? = some t) :
    k = 0 ∧ c.tasks = [t] ∧ Talks (c.sendTx.take c.taken) t := by
  rcases h with ⟨hnone,_⟩ | ⟨t',hone,htalks⟩
  · rw [hnone] at ht
    cases ht
  · rw [hone] at ht
    obtain ⟨hk,rfl⟩ := List.getElem?_eq_some_iff.mp ht
    have hk : k = 0 := Nat.lt_one_iff.mp hk
    subst hk
    exact ⟨rfl,hone,htalks⟩

/-- A step that leaves the tasks and what they have taken alone. -/
theorem Connected.quiet {c c' : Client} (h : c.Connected) (htasks : c'.tasks = c.tasks)
    (htaken : c'.taken = c.taken) (hsent : c'.sendTx.take c.taken = c.sendTx.take c.taken) :
    c'.Connected := by
  rw [Connected,htasks,htaken,hsent]
  exact h

theorem step_connected {c c' : Client} {label : Label} (hsending : c.Sending) (h : c.Connected)
    (hstep : Guarded OneConnection Step c label c') : c'.Connected := by
  obtain ⟨hguard,hstep⟩ := hstep
  cases hstep with
  | connect =>
    have hnone : c.tasks = [] := hguard
    rcases h with ⟨_,htaken⟩ | ⟨t,hone,_⟩
    · refine .inr ⟨.new,?_,?_⟩
      · change c.tasks ++ [.new] = [.new]
        rw [hnone]
        rfl
      · change Talks (c.sendTx.take c.taken) _
        rw [htaken]
        exact .new
    · cases hnone.symm.trans hone
  | send => exact h.quiet rfl rfl (List.take_append_of_le_length hsending.bounded)
  | sendMuteState => exact h.quiet rfl rfl (List.take_append_of_le_length hsending.bounded)
  | @outgoing k t o written bytes ht hrun ho hb hw =>
    obtain rfl : written = true := hguard
    obtain rfl : bytes = o.packet := hw rfl
    obtain ⟨rfl,hone,htalks⟩ := h.only ht
    have hnext : c.sendTx.take (c.taken + 1) = c.sendTx.take c.taken ++ [o] := by
      rw [List.take_add_one,ho]
      rfl
    refine .inr ⟨t.outgoing o true o.packet,?_,?_⟩
    · change c.tasks.set 0 _ = _
      rw [hone]
      rfl
    · change Talks (c.sendTx.take (c.taken + 1)) _
      rw [hnext]
      refine htalks.outgoing fun id tx hcallback hmem => ?_
      -- the callbacks registered so far and this one are part of those sent
      have hpart : c.sendTx = c.sendTx.take c.taken ++ [o] ++ c.sendTx.drop (c.taken + 1) := by
        rw [← hnext,List.take_append_drop]
      have hnodup := hsending.oneshots
      rw [hpart,callbacks,List.filterMap_append,List.filterMap_append,List.map_append,
        List.map_append,List.nodup_append] at hnodup
      have hfront := hnodup.1
      rw [List.nodup_append] at hfront
      exact hfront.2.2 tx hmem tx (by simp [hcallback]) rfl
  | @incoming k t result ht =>
    obtain ⟨rfl,hone,htalks⟩ := h.only ht
    refine .inr ⟨t.incoming result,?_,?_⟩
    · change c.tasks.set 0 _ = _
      rw [hone]
      rfl
    · refine htalks.incoming ?_ result
      exact hsending.oneshots.sublist
        (((List.take_sublist c.taken c.sendTx).filterMap Outgoing.callback).map Prod.snd)
  | _ => exact h

/-- A task that goes on keeps its answers. -/
theorem given_setTask {c : Client} {k : ℕ} {t t' : Task} (ht : c.tasks[k]? = some t)
    (hanswered : t.handler.pendingResponses.answered <+: t'.handler.pendingResponses.answered)
    {n : ℕ} {packet : Packet} (h : ∃ t ∈ c.tasks, (n,packet) ∈ t.handler.pendingResponses.answered) :
    ∃ t ∈ c.tasks.set k t', (n,packet) ∈ t.handler.pendingResponses.answered := by
  obtain ⟨u,hu,hmem⟩ := h
  obtain ⟨j,hj⟩ := List.mem_iff_getElem?.mp hu
  by_cases hk : k = j
  · rw [← hk,ht] at hj
    cases hj
    have hlt := (List.getElem?_eq_some_iff.mp ht).1
    exact ⟨t',List.mem_of_getElem? (List.getElem?_set_self hlt),hanswered.subset hmem⟩
  · exact ⟨u,List.mem_of_getElem? ((List.getElem?_set_ne hk).trans hj),hmem⟩

theorem step_given {c c' : Client} {label : Label} (h : c.Given) (hstep : Step c label c') :
    c'.Given := by
  have hset : ∀ {m : ℕ} {call' : Call}, (∀ packet, call'.phase = .returned (some packet) →
      ∃ t ∈ c.tasks, (m,packet) ∈ t.handler.pendingResponses.answered) →
      ∀ (n : ℕ) (call : Call) (packet : Packet), (c.calls.set m call')[n]? = some call →
        call.phase = .returned (some packet) →
        ∃ t ∈ c.tasks, (n,packet) ∈ t.handler.pendingResponses.answered := by
    intro m call' hnew n call packet hc hp
    by_cases hm : m = n
    · rw [← hm] at hc ⊢
      rw [List.getElem?_set] at hc
      simp only [if_true] at hc
      split at hc
      · cases hc
        exact hnew packet hp
      · cases hc
    · rw [List.getElem?_set_ne hm] at hc
      exact h n call packet hc hp
  cases hstep with
  | connect =>
    intro n call packet hc hp
    obtain ⟨t,ht,hmem⟩ := h n call packet hc hp
    exact ⟨t,List.mem_append_left _ ht,hmem⟩
  | call =>
    intro n call packet hc hp
    rcases getElem?_concat_inv hc with hold | ⟨_,rfl⟩
    · exact h n call packet hold hp
    · cases hp
  | send => exact hset fun _ hp => by cases hp
  | outgoing ht =>
    intro n call packet hc hp
    refine given_setTask ht ?_ (h n call packet hc hp)
    rw [answered_outgoing]
  | incoming ht =>
    intro n call packet hc hp
    exact given_setTask ht (answered_incoming _ _) (h n call packet hc hp)
  | respond hc hp ht ha =>
    refine hset fun packet' hp' => ?_
    cases hp'
    exact ⟨_,List.mem_of_getElem? ht,ha⟩
  | fail => exact hset fun _ hp => by cases hp
  | _ => exact h

/-- In every run with one connect at most and without failing writes. -/
theorem run_connected {trace : Trace} {c : Client} (hr : Run (Guarded OneConnection Step) new trace c) :
    c.Sending ∧ c.Connected ∧ c.Given := by
  refine Run.preserves (P := fun c : Client => c.Sending ∧ c.Connected ∧ c.Given) ?_ hr ?_
  · rintro c label c' ⟨hsending,hconnected,hgiven⟩ hstep
    exact ⟨step_sending hsending hstep.2,step_connected hsending hconnected hstep,
      step_given hgiven hstep.2⟩
  · exact ⟨sending_new,.inl ⟨rfl,rfl⟩,fun _ _ _ hc => by cases hc⟩

end Client
end VoiceApp.Sdk
