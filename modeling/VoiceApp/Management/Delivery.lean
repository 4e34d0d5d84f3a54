import VoiceApp.Base.Ring
import VoiceApp.Management.Cleanup
import VoiceApp.Management.OwnRecord

/-! # What becomes of a broadcast

For one connection a run is a feed: what has been sent since it subscribed, and what its
task has written between receiving it and waiting again. A message is skipped only when the ring has
overwritten it; everything else is written in order, once each.
-/
namespace VoiceApp.Management
open Protocol Server

/-- What concerns the broadcasts to one connection: `relaying` from the receipt of a message
until its task waits again, `forwarded` for all that it writes in between. -/
structure Feed where
  subscribed : Bool
  sent : List BroadcastMessage
  got : List BroadcastMessage
  relaying : Bool
  forwarded : List Bytes
  lagged : Bool

def Label.sent : Label → List BroadcastMessage
  | .exec _ o _ => o.sent
  | _ => []

namespace Feed

/-- The task of the connection takes a step. -/
def own (f : Feed) : Label → Feed
  | .subscribe _ => { f with subscribed := true, relaying := false }
  | .recv _ (.ok m) => { f with got := f.got ++ [m], relaying := true }
  | .recv _ .lagged => { f with lagged := true, relaying := false }
  | .exec _ (.write data) written =>
    { f with forwarded := if f.relaying && written then f.forwarded ++ [data] else f.forwarded }
  | .exec _ _ _ => f
  | _ => { f with relaying := false }

/-- A message is sent to whoever has subscribed. -/
def send (f : Feed) (m : BroadcastMessage) : Feed :=
  if f.subscribed then { f with sent := f.sent ++ [m] } else f

def observe (id : UInt64) (f : Feed) (label : Label) : Feed :=
  label.sent.foldl send (if label.actor = some id then f.own label else f)

end Feed

/-- The feed of the connection `id` by the steps of a run. -/
def feed (id : UInt64) (trace : Trace) : Feed :=
  trace.foldl (Feed.observe id) ⟨false,[],[],false,[],false⟩

theorem feed_snoc (id : UInt64) (trace : Trace) (label : Label) :
    feed id (trace ++ [label]) = (feed id trace).observe id label := by
  simp only [feed,List.foldl_append,List.foldl_cons,List.foldl_nil]

/-- What is meant for the connection at `address`, as it is written. -/
def wanted (address : SocketAddr) (messages : List BroadcastMessage) : List Bytes :=
  (messages.filter fun m => m.shouldSendTo address).map BroadcastMessage.data

/-- The feed of a connection together with its place in the channel. -/
structure Place where
  feed : Feed
  broadcasts : List BroadcastMessage
  cursor : ℕ

def Place.view (trace : Trace) (s : ManagementServer) (id : UInt64) (c : Connection) : Place :=
  ⟨Management.feed id trace,s.broadcasts,c.cursor⟩

/-- Others send messages. -/
def Place.more (g : Place) (new : List BroadcastMessage) : Place :=
  { g with
    feed := new.foldl Feed.send g.feed
    broadcasts := g.broadcasts ++ new }

/-- Whatever a task does, messages only come in behind those that are there. -/
def deliveryDiscipline (id : UInt64) (_ : SocketAddr) : Discipline Op Op.Res Place where
  rely g g' := ∃ new, g' = g.more new
  answers _ _ _ := True
  effect g o r g' := g' = Place.more { g with feed := g.feed.own (.exec id o r) } o.sent
  rely_refl g := ⟨[],by simp [Place.more]⟩
  rely_trans := by
    rintro g _ _ ⟨new,rfl⟩ ⟨new',rfl⟩
    exact ⟨new ++ new',by simp [Place.more,List.foldl_append,List.append_assoc]⟩

/-- Nothing has been received, skipped or written yet. -/
def Unsubscribed (g : Place) : Prop :=
  g.feed.subscribed = false ∧ g.feed.sent = [] ∧ g.feed.got = [] ∧ g.feed.forwarded = []

/-- Everything sent has been received, skipped or is still to come, and what was received
has been written if it was meant for this connection. -/
structure Delivering (address : SocketAddr) (g : Place) : Prop where
  subscribed : g.feed.subscribed = true
  place : g.cursor ≤ g.broadcasts.length
  received : Received broadcastChannelCapacity (g.feed.lagged = true) g.feed.sent g.feed.got
    (g.broadcasts.drop g.cursor)
  written : g.feed.forwarded = wanted address g.feed.got

/-- The message received last is yet to be written. -/
structure Forwarding (address : SocketAddr) (m : BroadcastMessage) (g : Place) : Prop where
  subscribed : g.feed.subscribed = true
  place : g.cursor ≤ g.broadcasts.length
  received : Received broadcastChannelCapacity (g.feed.lagged = true) g.feed.sent g.feed.got
    (g.broadcasts.drop g.cursor)
  relaying : g.feed.relaying = true
  written : g.feed.forwarded ++ [m.data] = wanted address g.feed.got

def deliveryLaw : Law Place where
  view := Place.view
  discipline := deliveryDiscipline
  early _ _ := Unsubscribed
  idle _ address _ := Delivering address

/-- The message is written. -/
theorem Forwarding.done {address : SocketAddr} {m : BroadcastMessage} {g : Place} {id : UInt64}
    (h : Forwarding address m g) :
    Delivering address { g with feed := g.feed.own (.exec id (.write m.data) true) } := by
  refine ⟨h.subscribed,h.place,h.received,?_⟩
  simpa [Feed.own,h.relaying] using h.written

theorem foldl_send {f : Feed} (h : f.subscribed = true) (new : List BroadcastMessage) :
    new.foldl Feed.send f = { f with sent := f.sent ++ new } := by
  induction new generalizing f with
  | nil => simp
  | cons m rest ih =>
    have hsend : f.send m = { f with sent := f.sent ++ [m] } := if_pos h
    rw [List.foldl_cons,hsend,ih (f := { f with sent := f.sent ++ [m] }) h]
    simp

theorem foldl_send_unsubscribed {f : Feed} (h : f.subscribed = false) (new : List BroadcastMessage) :
    new.foldl Feed.send f = f := by
  induction new with
  | nil => rfl
  | cons m rest ih =>
    have hsend : f.send m = f := if_neg (by simp [h])
    rw [List.foldl_cons,hsend,ih]

/-- What is sent is still to come. -/
theorem received_more {g : Place} (hplace : g.cursor ≤ g.broadcasts.length)
    (hreceived : Received broadcastChannelCapacity (g.feed.lagged = true) g.feed.sent g.feed.got
      (g.broadcasts.drop g.cursor)) (new : List BroadcastMessage) :
    g.cursor ≤ (g.broadcasts ++ new).length ∧ Received broadcastChannelCapacity
      (g.feed.lagged = true) (g.feed.sent ++ new) g.feed.got ((g.broadcasts ++ new).drop g.cursor) := by
  constructor
  · rw [List.length_append]
    exact Nat.le_add_right_of_le hplace
  · rw [List.drop_append_of_le_length hplace]
    exact hreceived.send new

theorem Forwarding.more {address : SocketAddr} {m : BroadcastMessage} {g : Place}
    (h : Forwarding address m g) (new : List BroadcastMessage) :
    Forwarding address m (g.more new) := by
  obtain ⟨hplace,hreceived⟩ := received_more h.place h.received new
  unfold Place.more
  rw [foldl_send h.subscribed]
  exact ⟨h.subscribed,hplace,hreceived,h.relaying,h.written⟩

namespace Delivering
variable {address : SocketAddr} {g : Place}

theorem more (h : Delivering address g) (new : List BroadcastMessage) :
    Delivering address (g.more new) := by
  obtain ⟨hplace,hreceived⟩ := received_more h.place h.received new
  unfold Place.more
  rw [foldl_send h.subscribed]
  exact ⟨h.subscribed,hplace,hreceived,h.written⟩

/-- Outside the broadcast branch an operation writes nothing for a broadcast. -/
theorem own {id : UInt64} {o : Op} {r : o.Res} (h : Delivering address g)
    (hnot : g.feed.relaying = false) :
    Delivering address { g with feed := g.feed.own (.exec id o r) } ∧
      (g.feed.own (.exec id o r)).relaying = false := by
  cases o with
  | write data =>
    refine ⟨⟨h.subscribed,h.place,h.received,?_⟩,hnot⟩
    simpa [Feed.own,hnot] using h.written
  | _ => exact ⟨⟨h.subscribed,h.place,h.received,h.written⟩,hnot⟩

theorem more_relaying {g : Place} (h : g.feed.subscribed = true) (new : List BroadcastMessage) :
    (g.more new).feed.relaying = g.feed.relaying := by
  unfold Place.more
  rw [foldl_send h]

/-- A program that is not in the broadcast branch, whatever it does. -/
theorem program {A : Type} {id : UInt64} (p : HandlerM A) (h : Delivering address g)
    (hnot : g.feed.relaying = false) :
    (deliveryDiscipline id address).wp (fun _ => Delivering address) p g := by
  induction p generalizing g with
  | ret a =>
    rintro g' ⟨new,rfl⟩
    exact h.more new
  | op o k ih =>
    rintro g' ⟨new,rfl⟩ r _
    have hnot' : (g.more new).feed.relaying = false := (more_relaying h.subscribed new).trans hnot
    obtain ⟨hown,hstill⟩ := @Delivering.own address _ id o r (h.more new) hnot'
    exact ⟨_,rfl,ih r (hown.more _) ((more_relaying hown.subscribed _).trans hstill)⟩

/-- The broadcast branch writes the message if it is meant for this connection. -/
theorem branch {id : UInt64} {packetBuffer : Bytes} {m : BroadcastMessage}
    {feed : Feed} {broadcasts : List BroadcastMessage} {cursor : ℕ}
    (h : Delivering address ⟨feed,broadcasts,cursor⟩) (hm : broadcasts[cursor]? = some m) :
    deliveryLaw.Keeps id address (handleRecv address packetBuffer (.ok m))
      ⟨feed.own (.recv id (.ok m)),broadcasts,cursor + 1⟩ := by
  obtain ⟨hlt,hget⟩ := List.getElem?_eq_some_iff.mp hm
  have hdrop : broadcasts.drop cursor = m :: broadcasts.drop (cursor + 1) := by
    rw [List.drop_eq_getElem_cons hlt,hget]
  have hreceived := h.received
  rw [hdrop] at hreceived
  cases hsend : m.shouldSendTo address with
  | false =>
    rw [handleRecv_filtered address hsend]
    have hdone : Delivering address ⟨feed.own (.recv id (.ok m)),broadcasts,cursor + 1⟩ := by
      refine ⟨h.subscribed,hlt,hreceived.recv,?_⟩
      change feed.forwarded = wanted address (feed.got ++ [m])
      simpa [wanted,hsend] using h.written
    rintro g' ⟨new,rfl⟩
    exact hdone.more new
  | true =>
    rw [handleRecv_sent address hsend]
    have hforwarding : Forwarding address m ⟨feed.own (.recv id (.ok m)),broadcasts,cursor + 1⟩ := by
      refine ⟨h.subscribed,hlt,hreceived.recv,rfl,?_⟩
      change feed.forwarded ++ [m.data] = wanted address (feed.got ++ [m])
      have hwritten : feed.forwarded = wanted address feed.got := h.written
      simp [wanted,hsend,hwritten]
    rintro g' ⟨new,rfl⟩ written _
    have hnow := hforwarding.more new
    refine ⟨_,rfl,?_⟩
    cases written with
    | false => exact fun _ _ => trivial
    | true =>
      rintro g'' ⟨new',rfl⟩
      exact (hnow.done.more []).more new'

end Delivering

theorem feed_other {id : UInt64} {f : Feed} {label : Label} (hne : label.actor ≠ some id) :
    f.observe id label = label.sent.foldl Feed.send f := by
  rw [Feed.observe,if_neg hne]

theorem feed_own {id : UInt64} {f : Feed} {label : Label} (h : label.actor = some id) :
    f.observe id label = label.sent.foldl Feed.send (f.own label) := by
  rw [Feed.observe,if_pos h]

theorem step_broadcasts {s s' : ManagementServer} {label : Label} (hstep : Step s label s') :
    s'.broadcasts = s.broadcasts ++ label.sent := by
  cases hstep with
  | exec => exact s.perform_broadcasts _
  | _ => exact (List.append_nil _).symm

/-- What the labels of the others keep holds before a connection has been accepted. -/
theorem run_unborn {guard : ManagementServer → Label → Prop} {trace : Trace} {s : ManagementServer}
    {id : UInt64} {P : Trace → Prop} (hnil : P [])
    (hother : ∀ trace label, label.actor ≠ some id → P trace → P (trace ++ [label]))
    (h : Run (Guarded guard Step) ManagementServer.new trace s)
    (hnone : s.connections.lookup id = none) : P trace := by
  induction h with
  | refl => exact hnil
  | @snoc trace s label s' hr hstep ih =>
    have hbefore : s.connections.lookup id = none := by
      by_contra hsome
      obtain ⟨c,hc⟩ := Option.ne_none_iff_exists'.mp hsome
      obtain ⟨c',hc'⟩ := step_connection hstep.2 hc
      rw [hnone] at hc'
      cases hc'
    have hactor : label.actor ≠ some id := by
      intro hactor
      obtain ⟨c,hc⟩ := step_actor hstep.2 hactor
      rw [hbefore] at hc
      cases hc
    exact hother trace label hactor (ih hbefore)

/-- Before a connection has been accepted its feed is blank. -/
theorem run_feed_fresh {guard : ManagementServer → Label → Prop} {trace : Trace}
    {s : ManagementServer} (h : Run (Guarded guard Step) ManagementServer.new trace s) {id : UInt64}
    (hnone : s.connections.lookup id = none) : feed id trace = ⟨false,[],[],false,[],false⟩ := by
  refine run_unborn (P := fun trace => feed id trace = ⟨false,[],[],false,[],false⟩) rfl ?_ h hnone
  intro trace label hactor hfeed
  rw [feed_snoc,feed_other hactor,hfeed]
  exact foldl_send_unsubscribed rfl _

theorem deliveryLaw_kept : deliveryLaw.Kept fun _ _ => True := by
  have hview : ∀ (trace : Trace) (s : ManagementServer) (id : UInt64) (c' : Connection) (label : Label)
      (s₁ : ManagementServer), label.actor = some id → label.sent = [] →
      s₁.broadcasts = s.broadcasts → Place.view (trace ++ [label]) s₁ id c' =
        ⟨(feed id trace).own label,s.broadcasts,c'.cursor⟩ := by
    intro trace s id c' label s₁ hactor hsent hbroadcasts
    rw [Place.view,feed_snoc,feed_own hactor,hbroadcasts,hsent]
    rfl
  constructor
  · rintro id address g g' ⟨new,rfl⟩ h
    change Unsubscribed (g.more new)
    unfold Place.more
    rw [foldl_send_unsubscribed h.1]
    exact h
  · rintro id address b g g' ⟨new,rfl⟩ h
    exact Delivering.more h new
  · intro trace s label s' id c _ hstep hne _ _
    refine ⟨label.sent,?_⟩
    change Place.view _ _ _ _ = _
    rw [Place.view,feed_snoc,feed_other hne,step_broadcasts hstep.2]
    rfl
  · intro trace s address token hr _
    have hfresh := run_fresh hr
    change Unsubscribed (Place.view _ _ _ _)
    rw [Place.view,feed_snoc,feed_other (by simp [Label.actor]),run_feed_fresh hr hfresh]
    exact ⟨rfl,rfl,rfl,rfl⟩
  · intro trace s id c _ _ h
    exact Eq.mpr (congrArg Unsubscribed (hview trace s id _ _ _ rfl rfl rfl)) h
  · rintro trace s id c _ _ ⟨_,hsent,hgot,hforwarded⟩
    refine Eq.mpr (congrArg (Delivering _) (hview trace s id _ _ _ rfl rfl rfl)) ?_
    have hsent : (feed id trace).sent = [] := hsent
    have hgot : (feed id trace).got = [] := hgot
    refine ⟨rfl,Nat.le_refl _,?_,?_⟩
    · change Received _ _ (feed id trace).sent (feed id trace).got (s.broadcasts.drop s.broadcasts.length)
      rw [hsent,hgot,List.drop_length]
      exact .nil
    · change (feed id trace).forwarded = wanted _ (feed id trace).got
      rw [hgot]
      exact hforwarded
  · intro trace s id c b r phase _ _ _ _ h
    refine Eq.mpr (congrArg (deliveryLaw.Keeps id c.address _) (hview trace s id _ _ _ rfl rfl rfl)) ?_
    have hread : Delivering c.address ⟨(feed id trace).own (.read id r),s.broadcasts,c.cursor⟩ :=
      ⟨h.subscribed,h.place,h.received,h.written⟩
    refine Discipline.wp_mono (fun outcome g h => ?_) (hread.program _ rfl)
    cases outcome with
    | proceed => exact h
    | exit => trivial
  · intro trace s id c b m phase _ _ _ _ hm h
    refine Eq.mpr (congrArg (deliveryLaw.Keeps id c.address _) (hview trace s id _ _ _ rfl rfl rfl)) ?_
    exact Delivering.branch h hm
  · intro trace s id c b _ _ _ _ hring h
    refine Eq.mpr (congrArg (Delivering _) (hview trace s id _ _ _ rfl rfl rfl)) ?_
    refine ⟨h.subscribed,Nat.sub_le _ _,?_,h.written⟩
    have hdrop : s.broadcasts.drop (s.broadcasts.length - broadcastChannelCapacity) =
        (s.broadcasts.drop c.cursor).drop
          (s.broadcasts.length - broadcastChannelCapacity - c.cursor) := by
      have hle : c.cursor ≤ s.broadcasts.length - broadcastChannelCapacity := by omega
      rw [List.drop_drop,Nat.add_sub_cancel' hle]
    have hreceived : Received broadcastChannelCapacity ((feed id trace).lagged = true)
      (feed id trace).sent (feed id trace).got (s.broadcasts.drop c.cursor) := h.received
    change Received _ _ (feed id trace).sent (feed id trace).got (s.broadcasts.drop _)
    rw [hdrop]
    refine (hreceived.skip ?_).mono fun _ => rfl
    rw [← hdrop,List.length_drop]
    omega
  · intros
    trivial
  · rintro trace s id c o r b phase g _ _ _ _ _ rfl
    refine ⟨[],?_⟩
    change Place.view _ _ _ _ = _
    have hbroadcasts : ((s.perform o).setConnection id { c with
        phase := phase, written := c.written ++ b }).broadcasts = s.broadcasts ++ o.sent :=
      s.perform_broadcasts o
    rw [Place.view,feed_snoc,feed_own rfl,hbroadcasts]
    simp [Place.more,Place.view,deliveryLaw,Label.sent]

theorem feed_lagged {id : UInt64} {trace : Trace} (h : (feed id trace).lagged = true) :
    .recv id .lagged ∈ trace := by
  induction trace using List.reverseRecOn with
  | nil => cases h
  | append_singleton trace label ih =>
    have hsends : ∀ (f : Feed) (ms : List BroadcastMessage), (ms.foldl Feed.send f).lagged = f.lagged := by
      intro f ms
      cases hs : f.subscribed with
      | true => rw [foldl_send hs]
      | false => rw [foldl_send_unsubscribed hs]
    rw [feed_snoc,Feed.observe,hsends] at h
    by_cases hactor : label.actor = some id
    · rw [if_pos hactor] at h
      by_cases hlabel : label = .recv id .lagged
      · rw [hlabel]
        exact List.mem_append_right _ List.mem_cons_self
      · have hbefore : (feed id trace).lagged = true := by
          cases label with
          | recv id' r =>
            cases r with
            | lagged =>
              cases hactor
              exact (hlabel rfl).elim
            | _ => exact h
          | exec id' o r => cases o <;> exact h
          | _ => exact h
        exact List.mem_append_left _ (ih hbefore)
    · rw [if_neg hactor] at h
      exact List.mem_append_left _ (ih h)

/-- What has been consumed since the subscription was all written, if meant for `address`. -/
def NothingLost (trace : Trace) (s : ManagementServer) (id : UInt64) (c : Connection) : Prop :=
  ∃ consumed, (feed id trace).sent = consumed ++ s.broadcasts.drop c.cursor ∧
    (feed id trace).forwarded = wanted c.address consumed

/-- In every run the messages sent since a connection has subscribed are received in order,
once each, and written if they are meant for it, except for those that the ring has
overwritten when the connection is told that it lags; without that nothing is lost. -/
theorem broadcasts_delivered {trace : Trace} {s : ManagementServer} {id : UInt64} {c : Connection}
    {packetBuffer : Bytes} (h : Run Step .new trace s) (hc : s.connections.lookup id = some c)
    (hp : c.phase = .select packetBuffer) :
    Received broadcastChannelCapacity (.recv id .lagged ∈ trace) (feed id trace).sent
      (feed id trace).got (s.broadcasts.drop c.cursor) ∧
    (feed id trace).forwarded = wanted c.address (feed id trace).got ∧
    (.recv id .lagged ∉ trace → NothingLost trace s id c) := by
  have hrun : Run (Guarded (fun _ _ => True) Step) ManagementServer.new trace s :=
    h.mono fun _ _ _ hstep => ⟨trivial,hstep⟩
  have hold := deliveryLaw_kept.run hrun id c hc
  rw [Law.Holds,hp] at hold
  have hreceived : Received broadcastChannelCapacity (.recv id .lagged ∈ trace) (feed id trace).sent
    (feed id trace).got (s.broadcasts.drop c.cursor) := Received.mono hold.received feed_lagged
  exact ⟨hreceived,hold.written,fun hnever => ⟨_,hreceived.complete hnever,hold.written⟩⟩

/-! ## A connection that does not listen -/

section Chat
variable {step : ManagementServer → Label → ManagementServer → Prop} {trace : Trace}
  {s : ManagementServer} {id : UInt64} {c : Connection} (hcalm : Calmly step id)
  (h : Run step .new trace (s.setConnection id c))
include hcalm h

/-- The task at hand carries out a chat message. -/
theorem run_chat {u : User} {data response announcement : Bytes}
    (hp : c.phase = .select []) (hu : s.users.lookup c.address = some u)
    (hdata : (Packet.chatMessageRequest 7 "").encode = some data) (hlen : data.length ≤ packetBufferSize)
    (hresponse : (Packet.chatMessageResponse 7 true).encode = some response)
    (hannouncement : (Packet.userSentMessage u.id 0 "").encode = some announcement)
    (hread : ∀ {s'}, Step (s.setConnection id c) (.read id (.ok data)) s' →
      step (s.setConnection id c) (.read id (.ok data)) s') :
    ∃ c', Run step .new (trace ++ [.read id (.ok data),.exec id (.get c.address) (some u),
        .exec id (.encode (.chatMessageResponse 7 true)) response,.exec id (.write response) true,
        .exec id .now (0 : UInt64),.exec id (.encode (.userSentMessage u.id 0 "")) announcement,
        .exec id (.broadcast ⟨none,announcement⟩) ()])
        ((s.perform (.broadcast ⟨none,announcement⟩)).setConnection id c') ∧
      c'.phase = .select [] ∧ c'.address = c.address ∧ c'.cursor = c.cursor := by
  have hprogram : handleRead c.address [] (.ok data) = .op (.get c.address) fun
      | none => .ret (.proceed [])
      | some user => .op (.encode (.chatMessageResponse 7 true)) fun data =>
        writing data (.op .now fun timestamp => announcing none
          (.userSentMessage user.id timestamp "") (.ret (.ok ()))) >>= fun _ =>
            .ret (.proceed []) := by
    rw [handleRead_packet _ hdata]
    change (handleChatMessageRequest _ _ _).run >>= _ = _
    rw [handleChatMessageRequest_run]
    refine congrArg (Proc.op _) (funext fun record => ?_)
    cases record <;> rfl
  have h₁ := h.snoc (hread (step_read (r := .ok data) hp hlen))
  have h₂ := run_silent hcalm h₁ (o := .get c.address) (r := some u)
    (congrArg Phase.ofProgram hprogram) hu.symm rfl trivial
  have h₃ := run_silent hcalm h₂ (o := .encode _) rfl hresponse rfl trivial
  have h₄ := run_exec hcalm h₃ (o := .write response) (r := true) rfl trivial rfl rfl
  have h₅ := run_silent hcalm h₄ (o := .now) (r := (0 : UInt64)) rfl trivial rfl trivial
  have h₆ := run_silent hcalm h₅ (o := .encode _) rfl hannouncement rfl trivial
  have h₇ := run_silent hcalm h₆ (o := .broadcast ⟨none,announcement⟩) (r := ()) rfl trivial rfl trivial
  simp only [List.append_assoc,List.cons_append,List.nil_append] at h₇
  exact ⟨_,h₇,rfl,rfl,rfl⟩

/-- The task at hand receives the next message and writes it. -/
theorem run_hears {m : BroadcastMessage} (hp : c.phase = .select [])
    (hm : s.broadcasts[c.cursor]? = some m)
    (hring : s.broadcasts.length ≤ c.cursor + broadcastChannelCapacity)
    (hsend : m.shouldSendTo c.address = true)
    (hrecv : ∀ {s'}, Step (s.setConnection id c) (.recv id (.ok m)) s' →
      step (s.setConnection id c) (.recv id (.ok m)) s') :
    ∃ c', Run step .new (trace ++ [.recv id (.ok m),.exec id (.write m.data) true]) (s.setConnection id c') ∧
      c'.phase = .select [] := by
  have hstep := Step.recv (s.setConnection_own id c) hp hm hring
  have h₁ := h.snoc (hrecv hstep)
  rw [ManagementServer.setConnection_twice] at h₁
  have h₂ := run_exec hcalm h₁ (o := .write m.data) (r := true)
    (congrArg Phase.ofProgram (handleRecv_sent c.address hsend [])) trivial rfl rfl
  rw [List.append_assoc] at h₂
  exact ⟨_,h₂,rfl⟩

end Chat

/-- An empty chat message, its response and its announcement. -/
theorem encode_chat : ∃ data response announcement,
    (Packet.chatMessageRequest 7 "").encode = some data ∧ data.length ≤ packetBufferSize ∧
    (Packet.chatMessageResponse 7 true).encode = some response ∧
    (Packet.userSentMessage 1 0 "").encode = some announcement := by
  have hdata : (Packet.chatMessageRequest 7 "").encode =
    some [5,0,10,0,0,0,0,0,0,0,7,0,0] := by decide
  obtain ⟨response,hresponse⟩ := (Packet.encode_isSome_iff (.chatMessageResponse 7 true)).mpr (by decide)
  obtain ⟨announcement,hannouncement⟩ := (Packet.encode_isSome_iff (.userSentMessage 1 0 "")).mpr
    (by decide)
  exact ⟨_,response,announcement,hdata,by decide,hresponse,hannouncement⟩

/-- User 1 has sent `n` chat messages and received none of their announcements. -/
theorem run_chats {data response announcement : Bytes}
    (hdata : (Packet.chatMessageRequest 7 "").encode = some data)
    (hlen : data.length ≤ packetBufferSize)
    (hresponse : (Packet.chatMessageResponse 7 true).encode = some response)
    (hannouncement : (Packet.userSentMessage 1 0 "").encode = some announcement) (n : ℕ) :
    ∃ (trace : Trace) (s : ManagementServer) (c : Connection),
      Run Step .new trace (s.setConnection 1 c) ∧ c.phase = .select [] ∧ c.address = .v4 1 1 ∧ c.cursor = 0 ∧
      s.users.lookup (.v4 1 1) = some ⟨1,none,false,false,11⟩ ∧
      s.broadcasts = List.replicate n ⟨none,announcement⟩ ∧
      feed 1 trace = ⟨true,List.replicate n ⟨none,announcement⟩,[],false,[],false⟩ := by
  induction n with
  | zero =>
    have hsolo : Run (Guarded liveApart.guard Step) .new
        [.accept (.v4 1 1) 11,.connect 1,.subscribe 1] (solo.setConnection 1 soloist) :=
      run_solo fun _ _ h _ _ => h
    exact ⟨_,solo,soloist,hsolo.mono fun _ _ _ h => h.2,rfl,rfl,rfl,rfl,rfl,rfl⟩
  | succ n ih =>
    obtain ⟨trace,s,c,h,hp,haddr,hcursor,hu,hbroadcasts,hfeed⟩ := ih
    have hrecord : s.users.lookup c.address = some ⟨1,none,false,false,11⟩ := by
      rw [haddr]
      exact hu
    obtain ⟨c',h',hp',haddr',hcursor'⟩ := run_chat (fun hstep _ => hstep) h hp hrecord hdata hlen
      hresponse hannouncement fun hstep => hstep
    refine ⟨_,_,c',h',hp',haddr'.trans haddr,hcursor'.trans hcursor,hu,?_,?_⟩
    · change s.broadcasts ++ [_] = _
      rw [hbroadcasts,List.replicate_succ']
    · rw [feed,List.foldl_append]
      change List.foldl _ (feed 1 trace) _ = _
      rw [hfeed,List.replicate_succ']
      rfl

/-- User 1 sends one chat message and is told of it. -/
theorem broadcasts_delivered_chat : ∃ trace announcement,
    (feed 1 trace).got = [⟨none,announcement⟩] ∧ (feed 1 trace).forwarded = [announcement] := by
  obtain ⟨data,response,announcement,hdata,hlen,hresponse,hannouncement⟩ := encode_chat
  obtain ⟨trace,s,c,h,hp,haddr,hcursor,_,hbroadcasts,hfeed⟩ :=
    run_chats hdata hlen hresponse hannouncement 1
  have hm : s.broadcasts[c.cursor]? = some ⟨none,announcement⟩ := by
    rw [hbroadcasts,hcursor]
    rfl
  have hring : s.broadcasts.length ≤ c.cursor + broadcastChannelCapacity := by
    rw [hbroadcasts,hcursor]
    exact Nat.le_of_ble_eq_true rfl
  obtain ⟨c',hrun,hp'⟩ := run_hears (fun hstep _ => hstep) h hp hm hring rfl fun hstep => hstep
  have hgot : (feed 1 (trace ++ [.recv 1 (.ok ⟨none,announcement⟩),.exec 1 (.write announcement) true])).got =
      [⟨none,announcement⟩] := by
    rw [feed,List.foldl_append]
    change (List.foldl _ (feed 1 trace) _).got = _
    rw [hfeed]
    rfl
  refine ⟨_,announcement,hgot,?_⟩
  rw [(broadcasts_delivered hrun (ManagementServer.setConnection_own _ _ _) hp').2.1,hgot]
  rfl

/-- The connection of user 1 falls 1001 messages behind and loses the oldest one. -/
theorem lagging_connection_loses : ∃ trace s c, Run Step .new trace s ∧
    s.connections.lookup 1 = some c ∧ c.phase = .select [] ∧ ¬ NothingLost trace s 1 c := by
  obtain ⟨data,response,announcement,hdata,hlen,hresponse,hannouncement⟩ := encode_chat
  obtain ⟨trace,s,c,h,hp,haddr,hcursor,_,hbroadcasts,hfeed⟩ :=
    run_chats hdata hlen hresponse hannouncement (broadcastChannelCapacity + 1)
  have hlength : s.broadcasts.length = broadcastChannelCapacity + 1 := by
    rw [hbroadcasts,List.length_replicate]
  have hstep := Step.lagged (s.setConnection_own 1 c) hp (by
    change c.cursor + broadcastChannelCapacity < s.broadcasts.length
    omega)
  refine ⟨_,_,_,h.snoc hstep,ManagementServer.setConnection_own _ _ _,rfl,?_⟩
  rintro ⟨consumed,hsent,hforwarded⟩
  have hafter : feed 1 (trace ++ [.recv 1 .lagged]) = ⟨true,s.broadcasts,[],false,[],true⟩ := by
    rw [feed_snoc,hfeed,hbroadcasts]
    rfl
  rw [hafter] at hsent hforwarded
  -- one message has been consumed and none written
  have hone : consumed.length = 1 := by
    have := congrArg List.length hsent
    simp only [List.length_append,List.length_drop] at this
    change s.broadcasts.length = consumed.length +
      (s.broadcasts.length - (s.broadcasts.length - broadcastChannelCapacity)) at this
    omega
  obtain ⟨m,rfl⟩ := List.length_eq_one_iff.mp hone
  have hm : m = ⟨none,announcement⟩ := by
    have hmem : m ∈ s.broadcasts := by
      rw [show s.broadcasts = _ from hsent]
      simp
    rw [hbroadcasts] at hmem
    exact List.eq_of_mem_replicate hmem
  rw [hm] at hforwarded
  cases hforwarded

end VoiceApp.Management
