import VoiceApp.Management.Lifecycle
import VoiceApp.Presence.Standing

/-! # Announcements in the queues

The announcements about a user are, at every moment, those broadcast so far and those
that its task still owes. Whatever happens only adds to them and applies what it adds to
the stored entry, so nobody's convergence is lost.
-/
namespace VoiceApp.Presence
open Protocol Server Framing Management

/-- What a broadcast message announces about `v`. -/
def about (v : UInt64) (m : BroadcastMessage) : Option Packet :=
  match Packet.decode m.data with
  | .ok (packet,_) => if subject packet = some v then some packet else none
  | .error _ => none

theorem about_encode {packet : Packet} {m : BroadcastMessage} (h : packet.encode = some m.data)
    (v : UInt64) : about v m = if subject packet = some v then some packet else none := by
  unfold about
  rw [Packet.decode_self h]

/-- The announcements about `v` among these messages. -/
def news (v : UInt64) (broadcasts : List BroadcastMessage) : List Packet :=
  broadcasts.filterMap (about v)

theorem news_append (v : UInt64) (before after : List BroadcastMessage) :
    news v (before ++ after) = news v before ++ news v after := List.filterMap_append

theorem news_single {packet : Packet} {m : BroadcastMessage} (h : packet.encode = some m.data)
    (v : UInt64) : news v [m] = if subject packet = some v then [packet] else [] := by
  rw [news,List.filterMap_cons,about_encode h]
  split
  · rename_i hnone
    split at hnone
    · cases hnone
    · rename_i hne
      rw [if_neg hne]
      rfl
  · rename_i hsome
    split at hsome
    · rename_i heq
      cases hsome
      rw [if_pos heq]
      rfl
    · cases hsome

/-- What the users map says about `v`. -/
def stored (s : ManagementServer) (v : UInt64) : Option ParticipantInfo :=
  (s.connections.lookup v).bind fun c => present (s.users.lookup c.address)

/-- The packets that a client has been written. -/
def packetsOf (written : Bytes) : List Packet := (Packet.framer.split written).1

/-- The standing of the task of `id`, when each task owes these announcements. -/
def standing (owed : UInt64 → List Packet) (s : ManagementServer) (id : UInt64) (c : Connection) :
    Standing where
  own := s.users.lookup c.address
  owed := owed id
  sent := packetsOf c.written
  home v := (s.connections.lookup v).map (·.address)
  converges v x := (news v (s.broadcasts.drop c.cursor) ++ owed v).foldl (touch v) x = stored s v

/-- A step that broadcasts `more`: nothing announced is lost or reordered, and what is
announced in addition has been stored. -/
structure Advances (owed : UInt64 → List Packet) (s : ManagementServer)
    (owed' : UInt64 → List Packet) (s' : ManagementServer) (more : List BroadcastMessage) :
    Prop where
  broadcasts : s'.broadcasts = s.broadcasts ++ more
  home : ∀ v c, s.connections.lookup v = some c →
    ∃ c', s'.connections.lookup v = some c' ∧ c'.address = c.address
  changes : ∀ v, ∃ added, news v more ++ owed' v = owed v ++ added ∧
    stored s' v = added.foldl (touch v) (stored s v)

section Advances
variable {owed owed' : UInt64 → List Packet} {s s' : ManagementServer}
  {more : List BroadcastMessage} {id : UInt64} {c c' : Connection}

theorem Advances.replayable (h : Advances owed s owed' s' more) {v : UInt64}
    (ha : Replayable (touch v) (news v s.broadcasts ++ owed v) (stored s v)) :
    Replayable (touch v) (news v s'.broadcasts ++ owed' v) (stored s' v) := by
  obtain ⟨added,hadded,hstored⟩ := h.changes v
  have hall : news v s'.broadcasts ++ owed' v = news v s.broadcasts ++ owed v ++ added := by
    rw [h.broadcasts,news_append,List.append_assoc,hadded,List.append_assoc]
  rw [hall,hstored]
  exact ha.append fun packet _ => touch_overwrites v packet

theorem Advances.converges (h : Advances owed s owed' s' more) {cursor : ℕ}
    (hcursor : cursor ≤ s.broadcasts.length) {v : UInt64} {x : Option ParticipantInfo}
    (hx : (news v (s.broadcasts.drop cursor) ++ owed v).foldl (touch v) x = stored s v) :
    (news v (s'.broadcasts.drop cursor) ++ owed' v).foldl (touch v) x = stored s' v := by
  obtain ⟨added,hadded,hstored⟩ := h.changes v
  have hall : news v (s'.broadcasts.drop cursor) ++ owed' v =
      news v (s.broadcasts.drop cursor) ++ owed v ++ added := by
    rw [h.broadcasts,List.drop_append_of_le_length hcursor,news_append,List.append_assoc,hadded,
      List.append_assoc]
  rw [hall,List.foldl_append,hx,hstored]

theorem Advances.homes (h : Advances owed s owed' s' more) {v : UInt64} {a : SocketAddr}
    (ha : (s.connections.lookup v).map (·.address) = some a) :
    (s'.connections.lookup v).map (·.address) = some a := by
  obtain ⟨c,hc,rfl⟩ := Option.map_eq_some_iff.mp ha
  obtain ⟨c',hc',haddr⟩ := h.home v c hc
  rw [hc',← haddr]
  rfl

/-- A task that does not move sees the others move. -/
theorem Advances.drift (h : Advances owed s owed' s' more) (hcursor : c.cursor ≤ s.broadcasts.length)
    (hown : s'.users.lookup c.address = s.users.lookup c.address) (howed : owed' id = owed id) :
    Drift (standing owed s id c) (standing owed' s' id c) :=
  ⟨hown,howed,rfl,fun _ _ ha => h.homes ha,fun _ _ hx => h.converges hcursor hx⟩

/-- The stored entry does not need to be replayed to be converged to. -/
theorem stored_converges
    (ha : ∀ v, Replayable (touch v) (news v s.broadcasts ++ owed v) (stored s v)) (v : UInt64) :
    (standing owed s id c).converges v (stored s v) := by
  refine ha v _ ?_
  have hdrop : news v (s.broadcasts.drop c.cursor) <:+ news v s.broadcasts :=
    (List.drop_suffix c.cursor s.broadcasts).filterMap (about v)
  obtain ⟨before,hbefore⟩ := hdrop
  refine ⟨before,?_⟩
  rw [← List.append_assoc,hbefore]

/-- Taking in the oldest message received: what converged behind it converges. -/
theorem converges_next {m : BroadcastMessage} (hm : s.broadcasts[c.cursor]? = some m) {v : UInt64}
    {x : Option ParticipantInfo} (hx : (standing owed s id c).converges v x) :
    (standing owed s id { c with cursor := c.cursor + 1 }).converges v
      ((news v [m]).foldl (touch v) x) := by
  obtain ⟨hlt,hget⟩ := List.getElem?_eq_some_iff.mp hm
  change (news v (s.broadcasts.drop c.cursor) ++ owed v).foldl (touch v) x = stored s v at hx
  rw [List.drop_eq_getElem_cons hlt,hget,← List.singleton_append,news_append,List.append_assoc,
    List.foldl_append] at hx
  exact hx

end Advances

section Operation
variable {owed : UInt64 → List Packet} {s : ManagementServer} {id : UInt64} {c c' : Connection}

theorem stored_of_connection (hc : s.connections.lookup id = some c) :
    stored s id = present (s.users.lookup c.address) := by
  rw [stored,hc]
  rfl

/-- Moving a task on does not change what is stored. -/
theorem stored_setConnection (hc : s.connections.lookup id = some c) (haddr : c'.address = c.address)
    (v : UInt64) : stored (s.setConnection id c') v = stored s v := by
  unfold stored
  rw [ManagementServer.setConnection_lookup]
  by_cases hv : v = id
  · rw [if_pos hv,hv,hc]
    change present (s.users.lookup c'.address) = present (s.users.lookup c.address)
    rw [haddr]
  · rw [if_neg hv]
    rfl

theorem home_setConnection (hc : s.connections.lookup id = some c) (haddr : c'.address = c.address)
    {v : UInt64} {c₂ : Connection} (hv : s.connections.lookup v = some c₂) :
    ∃ c₃, (s.setConnection id c').connections.lookup v = some c₃ ∧ c₃.address = c₂.address := by
  rw [ManagementServer.setConnection_lookup]
  by_cases h : v = id
  · subst h
    rw [hc] at hv
    cases hv
    exact ⟨c',if_pos rfl,haddr⟩
  · exact ⟨c₂,by rw [if_neg h,hv],rfl⟩

variable {o : Op} {r : o.Res} {g : Standing}

/-- No other record is touched. -/
theorem perform_record (heff : (protocol id c.address).effect (standing owed s id c) o r g)
    {a : SocketAddr} (hne : a ≠ c.address) : (s.perform o).users.lookup a = s.users.lookup a := by
  cases o with
  | getMut a' update =>
    obtain ⟨rfl,_⟩ := heff
    simp [ManagementServer.perform,Table.lookup_modify,hne]
  | remove a' =>
    obtain ⟨rfl,_⟩ := heff
    simp [ManagementServer.perform,hne]
  | _ => rfl

/-- The own record is what the protocol says. -/
theorem perform_own (hr : s.Answers o r)
    (heff : (protocol id c.address).effect (standing owed s id c) o r g) :
    (s.perform o).users.lookup c.address = g.own := by
  cases o with
  | getMut a update =>
    obtain ⟨rfl,news,_,rfl⟩ := heff
    have hr : r = (s.users.lookup c.address).map update := hr
    simp [ManagementServer.perform,Table.lookup_modify,hr]
  | remove a =>
    obtain ⟨rfl,news,_,rfl⟩ := heff
    simp [ManagementServer.perform]
  | broadcast m =>
    obtain ⟨packet,_,_,⟨_,rfl⟩ | ⟨_,_,rest,_,rfl⟩⟩ := heff <;> rfl
  | write data =>
    obtain ⟨packet,_,rfl⟩ := heff
    rfl
  | _ =>
    obtain rfl := heff
    rfl

/-- What an operation that keeps to the protocol does to the standing of its task: the
announcements owed grow at their end with the record, and leave at their front by a
broadcast, which is attributed to the user of the task. -/
structure Effect (id : UInt64) (address : SocketAddr) (g : Standing) (o : Op) (g' : Standing) :
    Prop where
  owed : ∃ added, news id o.sent ++ g'.owed = g.owed ++ added ∧
    present g'.own = added.foldl (touch id) (present g.own)
  attributed : ∀ m ∈ o.sent, ∃ packet : Packet, packet.encode = some m.data ∧
    packet.isEvent = true ∧ ∀ v, subject packet = some v →
      v = id ∧ (m.exclude = none ∨ m.exclude = some address)
  home : g'.home = g.home
  converges : g'.converges = g.converges

theorem effect_spec {address : SocketAddr} {g g' : Standing}
    (heff : (protocol id address).effect g o r g') : Effect id address g o g' := by
  cases o with
  | getMut a update =>
    obtain ⟨_,added,hadded,rfl⟩ := heff
    exact ⟨⟨added,rfl,hadded⟩,fun m hm => (List.not_mem_nil hm).elim,rfl,rfl⟩
  | remove a =>
    obtain ⟨_,added,hadded,rfl⟩ := heff
    exact ⟨⟨added,rfl,hadded⟩,fun m hm => (List.not_mem_nil hm).elim,rfl,rfl⟩
  | write data =>
    obtain ⟨packet,_,rfl⟩ := heff
    exact ⟨⟨[],(List.append_nil _).symm,rfl⟩,fun m hm => (List.not_mem_nil hm).elim,rfl,rfl⟩
  | broadcast m =>
    obtain ⟨packet,hpacket,hevent,⟨hnone,rfl⟩ | ⟨hsome,hexclude,rest,howed,rfl⟩⟩ := heff
    · refine ⟨⟨[],?_,rfl⟩,fun m' hm => ?_,rfl,rfl⟩
      · rw [Op.sent,news_single hpacket,hnone,List.append_nil]
        rfl
      · obtain rfl := List.mem_singleton.mp hm
        exact ⟨packet,hpacket,hevent,fun v hv => by cases hnone.symm.trans hv⟩
    · refine ⟨⟨[],?_,rfl⟩,fun m' hm => ?_,rfl,rfl⟩
      · rw [Op.sent,news_single hpacket,if_pos hsome,List.append_nil,howed]
        rfl
      · obtain rfl := List.mem_singleton.mp hm
        refine ⟨packet,hpacket,hevent,fun v hv => ?_⟩
        rw [hsome] at hv
        exact ⟨(Option.some.inj hv).symm,hexclude⟩
  | _ =>
    obtain rfl := heff
    exact ⟨⟨[],(List.append_nil _).symm,rfl⟩,fun m hm => (List.not_mem_nil hm).elim,rfl,rfl⟩

/-- Nothing is announced about anybody else. -/
theorem Effect.others {address : SocketAddr} {g g' : Standing} (h : Effect id address g o g')
    {v : UInt64} (hne : v ≠ id) : news v o.sent = [] := by
  refine List.filterMap_eq_nil_iff.mpr fun m hm => ?_
  obtain ⟨packet,hpacket,_,hwho⟩ := h.attributed m hm
  rw [about_encode hpacket]
  exact if_neg fun hv => hne (hwho v hv).1

/-- One operation of one task, seen by everybody. -/
theorem perform_advances (c' : Connection) (hc : s.connections.lookup id = some c)
    (haddr : c'.address = c.address)
    (hapart : ∀ v c₂, v ≠ id → s.connections.lookup v = some c₂ → c₂.address ≠ c.address)
    (hr : s.Answers o r) (heff : (protocol id c.address).effect (standing owed s id c) o r g) :
    Advances owed s (Function.update owed id g.owed) ((s.perform o).setConnection id c') o.sent := by
  have hc₁ : (s.perform o).connections.lookup id = some c := by rwa [s.perform_connections]
  have hspec := effect_spec heff
  refine ⟨s.perform_broadcasts o,?_,?_⟩
  · intro v c₂ hv
    exact home_setConnection hc₁ haddr (by rwa [s.perform_connections])
  · intro v
    rw [stored_setConnection hc₁ haddr]
    by_cases hv : v = id
    · subst hv
      obtain ⟨added,howed,hpresent⟩ := hspec.owed
      refine ⟨added,?_,?_⟩
      · rw [Function.update_self]
        exact howed
      · rw [stored_of_connection hc₁,stored_of_connection hc,perform_own hr heff]
        exact hpresent
    · refine ⟨[],?_,?_⟩
      · rw [hspec.others hv,Function.update_of_ne hv,List.append_nil]
        rfl
      · unfold stored
        rw [s.perform_connections]
        cases hv' : s.connections.lookup v with
        | none => rfl
        | some c₂ => exact congrArg present (perform_record heff (hapart v c₂ hv hv'))

/-- What has been written to a client is a sequence of whole packets. -/
def Wire (written : Bytes) : Prop :=
  ∃ packets ws, Framer.Encoded Packet.encode packets ws ∧ written = ws.flatten

theorem packetsOf_encoded {packets : List Packet} {ws : List Bytes}
    (h : Framer.Encoded Packet.encode packets ws) : packetsOf ws.flatten = packets := by
  obtain ⟨k,kept,hsplit,hreached⟩ := Packet.framer_encodes.split_stream h (List.prefix_refl _)
  obtain ⟨rfl,_⟩ := hreached.complete h.length_eq
  rw [packetsOf,hsplit,List.take_length]

theorem Wire.write {written data : Bytes} {packet : Packet} (h : Wire written)
    (hdata : packet.encode = some data) :
    Wire (written ++ data) ∧ packetsOf (written ++ data) = packetsOf written ++ [packet] := by
  obtain ⟨packets,ws,hws,rfl⟩ := h
  have hmore : Framer.Encoded Packet.encode (packets ++ [packet]) (ws ++ [data]) :=
    List.rel_append hws (.cons hdata .nil)
  have hflatten : (ws ++ [data]).flatten = ws.flatten ++ data := by simp
  rw [← hflatten,packetsOf_encoded hws,packetsOf_encoded hmore]
  exact ⟨⟨_,_,hmore,rfl⟩,rfl⟩

/-- A write adds one more packet, everything else adds none. -/
theorem perform_written {b : Bytes} (h : Wire c.written)
    (hans : (protocol id c.address).answers (standing owed s id c) o r) (hb : o.Writes r b)
    (heff : (protocol id c.address).effect (standing owed s id c) o r g) :
    Wire (c.written ++ b) ∧ packetsOf (c.written ++ b) = g.sent := by
  have hnothing : b = [] → g.sent = packetsOf c.written →
      Wire (c.written ++ b) ∧ packetsOf (c.written ++ b) = g.sent := by
    rintro rfl hsent
    rw [List.append_nil]
    exact ⟨h,hsent.symm⟩
  cases o with
  | write data =>
    obtain rfl : r = true := hans
    obtain rfl : b = data := hb
    obtain ⟨packet,hpacket,rfl⟩ := heff
    exact h.write hpacket
  | getMut a update =>
    obtain ⟨_,_,_,rfl⟩ := heff
    exact hnothing hb rfl
  | remove a =>
    obtain ⟨_,_,_,rfl⟩ := heff
    exact hnothing hb rfl
  | broadcast m =>
    obtain ⟨_,_,_,⟨_,rfl⟩ | ⟨_,_,_,_,rfl⟩⟩ := heff
    · exact hnothing hb rfl
    · exact hnothing hb rfl
  | _ =>
    obtain rfl := heff
    exact hnothing hb rfl

/-- The standing after an operation is the one that the protocol says, up to what
everybody sees of it. -/
theorem perform_drift {s' : ManagementServer} {more : List BroadcastMessage}
    (hadv : Advances owed s (Function.update owed id g.owed) s' more)
    (hcursor : c.cursor ≤ s.broadcasts.length) (hcursor' : c'.cursor = c.cursor)
    (hown : s'.users.lookup c'.address = g.own) (hsent : packetsOf c'.written = g.sent)
    (heff : Effect id c.address (standing owed s id c) o g) :
    Drift g (standing (Function.update owed id g.owed) s' id c') := by
  refine ⟨hown,?_,hsent,?_,?_⟩
  · change Function.update owed id g.owed id = g.owed
    rw [Function.update_self]
  · intro v a ha
    rw [heff.home] at ha
    exact hadv.homes ha
  · intro v x hx
    rw [heff.converges] at hx
    change (news v (s'.broadcasts.drop c'.cursor) ++ _).foldl (touch v) x = stored s' v
    rw [hcursor']
    exact hadv.converges hcursor hx

end Operation
end VoiceApp.Presence
