import VoiceApp.Sdk.UdpRequests

/-! # What a call over UDP comes to

A call sends its request once for each attempt and gives up after the last one. What it
returns otherwise is what its decoder makes of a response with its own id.
-/
namespace VoiceApp.Sdk.UdpClient
open Protocol
variable {T : Type}

/-- How often the call has sent its request. -/
def sendsOf (n : ℕ) (trace : List (Label T)) : ℕ :=
  trace.countP fun
    | .send m => m == n
    | _ => false

/-- How often it has waited in vain. -/
def timeoutsOf (n : ℕ) (trace : List (Label T)) : ℕ :=
  trace.countP fun
    | .timeout m => m == n
    | _ => false

/-- The attempts that a call has made when it has sent its request and waited in vain this
often. -/
def Phase.Counts (packet : Packet) (sends timeouts : ℕ) : Phase T → Prop
  | .starting attempt => sends + 1 = attempt ∧ timeouts = sends ∧ attempt ≤ maxRetryAttempts
  | .registered attempt _ => sends + 1 = attempt ∧ timeouts = sends ∧ attempt ≤ maxRetryAttempts
  | .waiting attempt _ => sends = attempt ∧ timeouts + 1 = sends ∧ attempt ≤ maxRetryAttempts
  | .cleaning attempt outcome => sends = attempt ∧ attempt ≤ maxRetryAttempts ∧
    match outcome with
    | .timedOut => timeouts = sends
    | _ => timeouts + 1 = sends
  | .returned result =>
    packet.requestId = none ∧ result = .error .noRequestId ∧ sends = 0 ∧ timeouts = 0 ∨
    (∃ message, result = .error (.timeout message)) ∧ sends = maxRetryAttempts ∧
      timeouts = maxRetryAttempts ∨
    packet.requestId ≠ none ∧ (∀ message, result ≠ .error (.timeout message)) ∧
      timeouts + 1 = sends ∧ sends ≤ maxRetryAttempts
  | .panicked => sends < maxRetryAttempts ∧ timeouts = sends

/-- A call has made the attempts that it is at, and no call has been made for it before. -/
structure Counted (trace : List (Label T)) (u : UdpClient T) : Prop where
  counts : ∀ (n : ℕ) (r : Request T), u.requests[n]? = some r →
    r.phase.Counts r.packet (sendsOf n trace) (timeoutsOf n trace)
  none : ∀ n, u.requests.length ≤ n → sendsOf n trace = 0 ∧ timeoutsOf n trace = 0

/-- A response belongs to the call whose id it carries. -/
structure Matched (u : UdpClient T) : Prop where
  waiting : ∀ id tx, u.table.lookup id = some tx → ∃ (n : ℕ) (r : Request T),
    u.oneshots[tx]? = some n ∧ u.requests[n]? = some r ∧ r.packet.requestId = some id
  answers : ∀ tx packet, (tx,packet) ∈ u.answered → ∃ (n : ℕ) (r : Request T) (id : UInt64),
    u.oneshots[tx]? = some n ∧ u.requests[n]? = some r ∧ r.packet.requestId = some id ∧
    responseId packet = some id

/-- The call has been answered with this packet. -/
def AnsweredWith (u : UdpClient T) (n : ℕ) (packet : Packet) : Prop :=
  ∃ tx, u.oneshots[tx]? = some n ∧ (tx,packet) ∈ u.answered

/-- A callback is that of its call, and what a call has got was sent to it. -/
def Phase.Got (u : UdpClient T) (n : ℕ) (request : Packet) (decoder : Packet → Except String T) :
    Phase T → Prop
  | .registered _ tx => u.oneshots[tx]? = some n
  | .waiting _ tx => u.oneshots[tx]? = some n
  | .cleaning _ (.answered packet) => u.AnsweredWith n packet
  | .returned result => request.requestId = none ∨ result = .error .disconnected ∨
    (∃ message, result = .error (.timeout message)) ∨
    ∃ packet, u.AnsweredWith n packet ∧ result = (decoder packet).mapError .connectionFailed
  | _ => True

def AllGot (u : UdpClient T) : Prop := ∀ (n : ℕ) (r : Request T), u.requests[n]? = some r →
  r.phase.Got u n r.packet r.decoder

/-- No two calls have one request id. -/
def Distinct (u : UdpClient T) : Prop := ∀ (m n : ℕ) (q r : Request T) (id : UInt64),
  u.requests[m]? = some q → u.requests[n]? = some r → q.packet.requestId = some id →
  r.packet.requestId = some id → m = n

/-- A call that waits is in the map or has been answered. -/
def Kept (u : UdpClient T) : Prop := ∀ (n : ℕ) (r : Request T) (attempt : ℕ) (tx : Oneshot),
  u.requests[n]? = some r → r.phase = .registered attempt tx ∨ r.phase = .waiting attempt tx →
  ∃ id, r.packet.requestId = some id ∧
    (u.table.lookup id = some tx ∨ ∃ packet, (tx,packet) ∈ u.answered)

/-! ## Attempts -/

section Counting
variable {trace : List (Label T)} {u u' : UdpClient T} {label : Label T}

theorem sendsOf_append (n : ℕ) (trace more : List (Label T)) :
    sendsOf n (trace ++ more) = sendsOf n trace + sendsOf n more := List.countP_append ..

theorem timeoutsOf_append (n : ℕ) (trace more : List (Label T)) :
    timeoutsOf n (trace ++ more) = timeoutsOf n trace + timeoutsOf n more := List.countP_append ..

/-- A step that is of no call. -/
theorem Counted.still (h : Counted trace u) (hrequests : u'.requests = u.requests)
    (hnone : ∀ m, sendsOf m [label] = 0 ∧ timeoutsOf m [label] = 0) : Counted (trace ++ [label]) u' := by
  constructor
  · intro m r hr
    rw [hrequests] at hr
    rw [sendsOf_append,timeoutsOf_append,(hnone m).1,(hnone m).2]
    exact h.counts m r hr
  · intro m hm
    rw [hrequests] at hm
    rw [sendsOf_append,timeoutsOf_append,(hnone m).1,(hnone m).2]
    exact h.none m hm

/-- A step of one call. -/
theorem Counted.step (h : Counted trace u) {n : ℕ} {r r' : Request T} (hr : u.requests[n]? = some r)
    (hset : u'.requests = u.requests.set n r')
    (hothers : ∀ m, m ≠ n → sendsOf m [label] = 0 ∧ timeoutsOf m [label] = 0)
    (hphase : r'.phase.Counts r'.packet (sendsOf n trace + sendsOf n [label])
      (timeoutsOf n trace + timeoutsOf n [label])) : Counted (trace ++ [label]) u' := by
  obtain ⟨hlt,_⟩ := List.getElem?_eq_some_iff.mp hr
  constructor
  · intro m q hq
    rw [hset,getElem?_set_of_some hr] at hq
    rw [sendsOf_append,timeoutsOf_append]
    by_cases hm : m = n
    · rw [if_pos hm] at hq
      cases hq
      rw [hm]
      exact hphase
    · rw [if_neg hm] at hq
      rw [(hothers m hm).1,(hothers m hm).2]
      exact h.counts m q hq
  · intro m hm
    rw [hset,List.length_set] at hm
    rw [sendsOf_append,timeoutsOf_append,(hothers m (by omega)).1,(hothers m (by omega)).2]
    exact h.none m hm

theorem step_counted (h : Counted trace u) (hstep : Step u label u') : Counted (trace ++ [label]) u' := by
  cases hstep with
  | connect => exact h.still rfl fun _ => ⟨rfl,rfl⟩
  | sendPacket => exact h.still rfl fun _ => ⟨rfl,rfl⟩
  | outgoing => exact h.still rfl fun _ => ⟨rfl,rfl⟩
  | @incoming k result =>
    refine h.still ?_ fun _ => ⟨rfl,rfl⟩
    cases result <;> rfl
  | @sendRequest packet decoder =>
    have hnew : ∀ m, sendsOf m [(.sendRequest packet decoder : Label T)] = 0 ∧
      timeoutsOf m [(.sendRequest packet decoder : Label T)] = 0 := fun _ => ⟨rfl,rfl⟩
    constructor
    · intro m r hr
      rw [sendsOf_append,timeoutsOf_append,(hnew m).1,(hnew m).2]
      rcases getElem?_concat_inv hr with hold | ⟨hm,rfl⟩
      · exact h.counts m r hold
      · obtain ⟨hsends,htimeouts⟩ := h.none m hm.ge
        rw [hsends,htimeouts]
        unfold Request.new
        split
        · rename_i hid
          exact .inl ⟨hid,rfl,rfl,rfl⟩
        · exact ⟨rfl,rfl,by decide⟩
    · intro m hm
      rw [sendsOf_append,timeoutsOf_append,(hnew m).1,(hnew m).2]
      refine h.none m ?_
      change (u.requests ++ [_]).length ≤ m at hm
      rw [List.length_append] at hm
      omega
  | @register n r attempt id hr hp hid =>
    have hcount := h.counts n r hr
    rw [hp] at hcount
    exact h.step hr rfl (fun _ _ => ⟨rfl,rfl⟩) hcount
  | @send n r attempt tx data hr hp he =>
    have hcount := h.counts n r hr
    rw [hp] at hcount
    obtain ⟨hsends,htimeouts,hle⟩ := hcount
    refine h.step hr rfl (fun m hm => ⟨?_,rfl⟩) ?_
    · simp [sendsOf,Ne.symm hm]
    · have hone : sendsOf n [(.send n : Label T)] = 1 := by simp [sendsOf]
      have hzero : timeoutsOf n [(.send n : Label T)] = 0 := rfl
      rw [hone,hzero]
      exact ⟨hsends,by omega,hle⟩
  | @encodePanics n r attempt tx hr hp he =>
    have hcount := h.counts n r hr
    rw [hp] at hcount
    obtain ⟨hsends,htimeouts,hle⟩ := hcount
    exact h.step hr rfl (fun _ _ => ⟨rfl,rfl⟩) ⟨show sendsOf n trace < _ by omega,htimeouts⟩
  | @respond n r attempt tx packet hr hp ha =>
    have hcount := h.counts n r hr
    rw [hp] at hcount
    obtain ⟨hsends,htimeouts,hle⟩ := hcount
    exact h.step hr rfl (fun _ _ => ⟨rfl,rfl⟩) ⟨hsends,hle,htimeouts⟩
  | @closed n r attempt tx hr hp hd ha =>
    have hcount := h.counts n r hr
    rw [hp] at hcount
    obtain ⟨hsends,htimeouts,hle⟩ := hcount
    exact h.step hr rfl (fun _ _ => ⟨rfl,rfl⟩) ⟨hsends,hle,htimeouts⟩
  | @timeout n r attempt tx hr hp =>
    have hcount := h.counts n r hr
    rw [hp] at hcount
    obtain ⟨hsends,htimeouts,hle⟩ := hcount
    refine h.step hr rfl (fun m hm => ⟨rfl,?_⟩) ?_
    · simp [timeoutsOf,Ne.symm hm]
    · have hone : timeoutsOf n [(.timeout n : Label T)] = 1 := by simp [timeoutsOf]
      have hzero : sendsOf n [(.timeout n : Label T)] = 0 := rfl
      rw [hone,hzero]
      exact ⟨hsends,hle,htimeouts⟩
  | @cleanUp n r attempt outcome id hr hp hid =>
    have hcount := h.counts n r hr
    rw [hp] at hcount
    obtain ⟨hsends,hle,houtcome⟩ := hcount
    refine h.step hr rfl (fun _ _ => ⟨rfl,rfl⟩) ?_
    change (r.cleaned attempt outcome).Counts r.packet (sendsOf n trace) (timeoutsOf n trace)
    cases outcome with
    | answered packet =>
      refine .inr (.inr ⟨by simp [hid],?_,houtcome,hsends.trans_le hle⟩)
      cases r.decoder packet <;> simp [Except.mapError]
    | closed => exact .inr (.inr ⟨by simp [hid],by simp,houtcome,hsends.trans_le hle⟩)
    | timedOut =>
      unfold Request.cleaned
      change timeoutsOf n trace = sendsOf n trace at houtcome
      by_cases hlast : attempt < maxRetryAttempts
      · rw [if_pos hlast]
        exact ⟨by omega,houtcome,hlast⟩
      · rw [if_neg hlast]
        have hall : attempt = maxRetryAttempts := by omega
        exact .inr (.inl ⟨⟨_,rfl⟩,hsends.trans hall,houtcome.trans (hsends.trans hall)⟩)

theorem run_counted (h : Run Step new trace u) : Counted trace u := by
  induction h with
  | refl =>
    constructor
    · intro n r hr
      cases hr
    · intro n _
      exact ⟨rfl,rfl⟩
  | snoc _ hs ih => exact step_counted ih hs

end Counting

/-! ## Answers -/

/-- A datagram adds its packet to the packet stream or to the answers. -/
theorem incoming_hands (handler : Handler) {bytes : Bytes} {packet : Packet} {n : ℕ}
    (hd : Packet.decode bytes = .ok (packet,n)) :
    ((⟨handler,true⟩ : Task).incoming bytes).handler.packetTx = handler.packetTx ++ [packet] ∧
        ((⟨handler,true⟩ : Task).incoming bytes).handler.pendingRequests =
          handler.pendingRequests ∨
      ((⟨handler,true⟩ : Task).incoming bytes).handler.packetTx = handler.packetTx ∧
        ∃ id tx, responseId packet = some id ∧
          handler.pendingRequests.waiting.lookup id = some tx ∧
          ((⟨handler,true⟩ : Task).incoming bytes).handler.pendingRequests =
            ⟨handler.pendingRequests.waiting.erase id,handler.pendingRequests.answered ++ [(tx,packet)]⟩ := by
  cases hwait : awaited handler.pendingRequests.waiting packet with
  | none =>
    obtain ⟨count,hnext⟩ := incoming_streamed ⟨handler,true⟩ hd hwait
    rw [hnext]
    exact .inl ⟨rfl,rfl⟩
  | some entry =>
    obtain ⟨id,tx⟩ := entry
    obtain ⟨count,hnext⟩ := incoming_answered ⟨handler,true⟩ hd hwait
    obtain ⟨id',hid,hlookup⟩ := Option.bind_eq_some_iff.mp hwait
    obtain ⟨tx',hlookup,heq⟩ := Option.map_eq_some_iff.mp hlookup
    cases heq
    rw [hnext]
    exact .inr ⟨rfl,id,tx,hid,hlookup,rfl⟩

/-- A datagram that is refused adds nothing. -/
theorem incoming_refuses (handler : Handler) {bytes : Bytes} {e : ProtocolError}
    (hd : Packet.decode bytes = .error e) :
    ((⟨handler,true⟩ : Task).incoming bytes).handler.packetTx = handler.packetTx ∧
      ((⟨handler,true⟩ : Task).incoming bytes).handler.pendingRequests =
        handler.pendingRequests := by
  cases bytes with
  | nil => exact ⟨rfl,rfl⟩
  | cons byte rest =>
    simp only [Task.incoming,handleIncoming,hd,and_self]

section Answers
variable {trace : List (Label T)} {u u' : UdpClient T} {label : Label T}

/-- Everything that a step can do to the map, the answers and the callbacks. -/
theorem step_map (hstep : Step u label u') :
    u'.table = u.table ∧ u'.answered = u.answered ∧ u'.oneshots = u.oneshots ∨
    (∃ n r id, label = .register n ∧ u.requests[n]? = some r ∧ r.packet.requestId = some id ∧
      u'.table = u.table.insert id u.oneshots.length ∧ u'.answered = u.answered ∧
      u'.oneshots = u.oneshots ++ [n]) ∨
    (∃ id tx packet, u.table.lookup id = some tx ∧ responseId packet = some id ∧
      u'.table = u.table.erase id ∧ u'.answered = u.answered ++ [(tx,packet)] ∧
      u'.oneshots = u.oneshots ∧ u'.requests = u.requests) ∨
    ∃ n r attempt outcome id, label = .cleanUp n ∧ u.requests[n]? = some r ∧
      r.phase = .cleaning attempt outcome ∧ r.packet.requestId = some id ∧
      u'.table = u.table.erase id ∧ u'.answered = u.answered ∧ u'.oneshots = u.oneshots := by
  cases hstep with
  | register hr hp hid => exact .inr (.inl ⟨_,_,_,rfl,hr,hid,rfl,rfl,rfl⟩)
  | cleanUp hr hp hid => exact .inr (.inr (.inr ⟨_,_,_,_,_,rfl,hr,hp,hid,rfl,rfl,rfl⟩))
  | @incoming k result =>
    cases result with
    | none => exact .inl ⟨rfl,rfl,rfl⟩
    | some bytes =>
      have hsame : (u.incoming k (some bytes)).handler.pendingRequests = u.handler.pendingRequests →
          (u.incoming k (some bytes)).table = u.table ∧ (u.incoming k (some bytes)).answered = u.answered :=
        fun h => ⟨congrArg Pending.waiting h,congrArg Pending.answered h⟩
      cases hd : Packet.decode (received bytes) with
      | error e =>
        obtain ⟨htable,hanswered⟩ := hsame (incoming_refuses u.handler hd).2
        exact .inl ⟨htable,hanswered,rfl⟩
      | ok result =>
        obtain ⟨packet,n⟩ := result
        rcases incoming_hands u.handler hd with
          ⟨_,hpending⟩ | ⟨_,id,tx,hid,hwait,hpending⟩
        · obtain ⟨htable,hanswered⟩ := hsame hpending
          exact .inl ⟨htable,hanswered,rfl⟩
        · exact .inr (.inr (.inl ⟨id,tx,packet,hwait,hid,congrArg Pending.waiting hpending,
            congrArg Pending.answered hpending,rfl,rfl⟩))
  | _ => exact .inl ⟨rfl,rfl,rfl⟩

/-- A call keeps its place, its packet and its decoder. -/
theorem step_keeps (hstep : Step u label u') {n : ℕ} {r : Request T} (hr : u.requests[n]? = some r) :
    ∃ r', u'.requests[n]? = some r' ∧ r'.packet = r.packet ∧ r'.decoder = r.decoder := by
  have hset : ∀ {m q q'}, u.requests[m]? = some q → q'.packet = q.packet → q'.decoder = q.decoder →
      ∃ r', (u.requests.set m q')[n]? = some r' ∧ r'.packet = r.packet ∧ r'.decoder = r.decoder := by
    intro m q q' hq hpacket hdecoder
    rw [getElem?_set_of_some hq]
    by_cases hn : n = m
    · rw [if_pos hn]
      rw [hn] at hr
      cases hr.symm.trans hq
      exact ⟨q',rfl,hpacket,hdecoder⟩
    · rw [if_neg hn]
      exact ⟨r,hr,rfl,rfl⟩
  cases hstep with
  | connect => exact ⟨r,hr,rfl,rfl⟩
  | sendPacket => exact ⟨r,hr,rfl,rfl⟩
  | sendRequest => exact ⟨r,getElem?_append_of_some hr _,rfl,rfl⟩
  | register hq => exact hset hq rfl rfl
  | send hq => exact hset hq rfl rfl
  | encodePanics hq => exact hset hq rfl rfl
  | outgoing => exact ⟨r,hr,rfl,rfl⟩
  | @incoming k result => cases result <;> exact ⟨r,hr,rfl,rfl⟩
  | respond hq => exact hset hq rfl rfl
  | closed hq => exact hset hq rfl rfl
  | timeout hq => exact hset hq rfl rfl
  | cleanUp hq => exact hset hq rfl rfl

/-- Callbacks and answers stay. -/
theorem step_stays (hstep : Step u label u') :
    (∀ tx n : ℕ, u.oneshots[tx]? = some n → u'.oneshots[tx]? = some n) ∧
      ∀ answer ∈ u.answered, answer ∈ u'.answered := by
  rcases step_map hstep with ⟨_,hanswered,honeshots⟩ | ⟨n,r,id,_,_,_,_,hanswered,honeshots⟩ |
    ⟨id,tx,packet,_,_,_,hanswered,honeshots,_⟩ | ⟨n,r,attempt,outcome,id,_,_,_,_,_,hanswered,honeshots⟩
  · rw [hanswered,honeshots]
    exact ⟨fun _ _ h => h,fun _ h => h⟩
  · rw [hanswered,honeshots]
    exact ⟨fun _ _ h => getElem?_append_of_some h _,fun _ h => h⟩
  · rw [hanswered,honeshots]
    exact ⟨fun _ _ h => h,fun _ h => List.mem_append_left _ h⟩
  · rw [hanswered,honeshots]
    exact ⟨fun _ _ h => h,fun _ h => h⟩

theorem step_matched (h : Matched u) (hstep : Step u label u') : Matched u' := by
  obtain ⟨honeshots,_⟩ := step_stays hstep
  have hwaiting : ∀ id tx, u.table.lookup id = some tx → ∃ (n : ℕ) (r : Request T),
      u'.oneshots[tx]? = some n ∧ u'.requests[n]? = some r ∧ r.packet.requestId = some id := by
    intro id tx hl
    obtain ⟨n,r,htx,hr,hid⟩ := h.waiting id tx hl
    obtain ⟨r',hr',hpacket,_⟩ := step_keeps hstep hr
    rw [← hpacket] at hid
    exact ⟨n,r',honeshots tx n htx,hr',hid⟩
  have hanswers : ∀ tx packet, (tx,packet) ∈ u.answered → ∃ (n : ℕ) (r : Request T) (id : UInt64),
      u'.oneshots[tx]? = some n ∧ u'.requests[n]? = some r ∧ r.packet.requestId = some id ∧
      responseId packet = some id := by
    intro tx packet hmem
    obtain ⟨n,r,id,htx,hr,hid,hresponse⟩ := h.answers tx packet hmem
    obtain ⟨r',hr',hpacket,_⟩ := step_keeps hstep hr
    rw [← hpacket] at hid
    exact ⟨n,r',id,honeshots tx n htx,hr',hid,hresponse⟩
  rcases step_map hstep with ⟨htable,hanswered,_⟩ | ⟨n,r,id,_,hr,hid,htable,hanswered,hmore⟩ |
    ⟨id,tx,packet,hwait,hresponse,htable,hanswered,_,_⟩ |
    ⟨n,r,attempt,outcome,id,_,_,_,_,htable,hanswered,_⟩
  · exact ⟨htable ▸ hwaiting,hanswered ▸ hanswers⟩
  · refine ⟨?_,hanswered ▸ hanswers⟩
    intro id' tx hl
    rw [htable,Table.lookup_insert_eq] at hl
    split at hl
    · rename_i hsame
      cases hl
      obtain ⟨r',hr',hpacket,_⟩ := step_keeps hstep hr
      rw [hsame,← hid,← hpacket]
      refine ⟨n,r',?_,hr',rfl⟩
      rw [hmore]
      exact List.getElem?_concat_length
    · exact hwaiting id' tx hl
  · constructor
    · intro id' tx' hl
      rw [htable,Table.lookup_erase_eq] at hl
      split at hl
      · cases hl
      · exact hwaiting id' tx' hl
    · intro tx' packet' hmem
      rw [hanswered] at hmem
      rcases List.mem_append.mp hmem with hold | hnew
      · exact hanswers tx' packet' hold
      · cases List.mem_singleton.mp hnew
        obtain ⟨n,r,htx,hr,hid⟩ := hwaiting id tx hwait
        exact ⟨n,r,id,htx,hr,hid,hresponse⟩
  · refine ⟨?_,hanswered ▸ hanswers⟩
    intro id' tx hl
    rw [htable,Table.lookup_erase_eq] at hl
    split at hl
    · cases hl
    · exact hwaiting id' tx hl

theorem Phase.Got.mono {n : ℕ} {request : Packet} {decoder : Packet → Except String T} {phase : Phase T}
    (h : phase.Got u n request decoder) (honeshots : ∀ tx n : ℕ, u.oneshots[tx]? = some n → u'.oneshots[tx]? = some n)
    (hanswered : ∀ answer ∈ u.answered, answer ∈ u'.answered) : phase.Got u' n request decoder := by
  have hwith : ∀ packet, u.AnsweredWith n packet → u'.AnsweredWith n packet := by
    rintro packet ⟨tx,htx,hmem⟩
    exact ⟨tx,honeshots tx n htx,hanswered _ hmem⟩
  cases phase with
  | starting => trivial
  | registered attempt tx => exact honeshots tx n h
  | waiting attempt tx => exact honeshots tx n h
  | cleaning attempt outcome =>
    cases outcome with
    | answered packet => exact hwith packet h
    | _ => trivial
  | returned result =>
    rcases h with h | h | h | ⟨packet,hpacket,hresult⟩
    · exact .inl h
    · exact .inr (.inl h)
    · exact .inr (.inr (.inl h))
    · exact .inr (.inr (.inr ⟨packet,hwith packet hpacket,hresult⟩))
  | panicked => trivial

/-- A call has got what its new phase says, and the others keep what they have got. -/
theorem AllGot.step (h : AllGot u) (hstep : Step u label u') {n : ℕ} {r : Request T} {phase : Phase T}
    (hr : u.requests[n]? = some r) (hset : u'.requests = u.requests.set n { r with phase := phase })
    (hphase : phase.Got u' n r.packet r.decoder) : AllGot u' := by
  obtain ⟨honeshots,hanswered⟩ := step_stays hstep
  intro m q hq
  rw [hset,getElem?_set_of_some hr] at hq
  split at hq
  · rename_i hm
    cases hq
    rw [hm]
    exact hphase
  · exact (h m q hq).mono honeshots hanswered

theorem AllGot.still (h : AllGot u) (hstep : Step u label u') (hrequests : u'.requests = u.requests) :
    AllGot u' := by
  obtain ⟨honeshots,hanswered⟩ := step_stays hstep
  intro m q hq
  rw [hrequests] at hq
  exact (h m q hq).mono honeshots hanswered

theorem step_allGot (h : AllGot u) (hstep : Step u label u') : AllGot u' := by
  have hstays := step_stays hstep
  cases hstep with
  | connect => exact h.still .connect rfl
  | sendPacket => exact h.still .sendPacket rfl
  | sendRequest =>
    intro m q hq
    rcases getElem?_concat_inv hq with hold | ⟨_,rfl⟩
    · exact (h m q hold).mono hstays.1 hstays.2
    · unfold Request.new
      split
      · exact .inl ‹_›
      · trivial
  | register hr hp hid => exact h.step (.register hr hp hid) hr rfl List.getElem?_concat_length
  | @send n r attempt tx data hr hp he =>
    have hgot := h n r hr
    rw [hp] at hgot
    exact h.step (.send hr hp he) hr rfl hgot
  | encodePanics hr hp he => exact h.step (.encodePanics hr hp he) hr rfl trivial
  | outgoing hrun hd => exact h.still (.outgoing hrun hd) rfl
  | @incoming k result hrun => exact h.still (.incoming hrun) (by cases result <;> rfl)
  | @respond n r attempt tx packet hr hp ha =>
    have hgot := h n r hr
    rw [hp] at hgot
    exact h.step (.respond hr hp ha) hr rfl ⟨tx,hgot,ha⟩
  | closed hr hp hd ha => exact h.step (.closed hr hp hd ha) hr rfl trivial
  | timeout hr hp => exact h.step (.timeout hr hp) hr rfl trivial
  | @cleanUp n r attempt outcome id hr hp hid =>
    have hgot := h n r hr
    rw [hp] at hgot
    refine h.step (.cleanUp hr hp hid) hr rfl ?_
    cases outcome with
    | answered packet => exact .inr (.inr (.inr ⟨packet,hgot,rfl⟩))
    | closed => exact .inr (.inl rfl)
    | timedOut =>
      simp only [Request.cleaned]
      split
      · trivial
      · exact .inr (.inr (.inl ⟨_,rfl⟩))

/-- Calls that have different ids have had them from the start. -/
theorem step_distinct (hstep : Step u label u') (h : Distinct u') : Distinct u := by
  intro m n q r id hq hr hqid hrid
  obtain ⟨q',hq',hqpacket,_⟩ := step_keeps hstep hq
  obtain ⟨r',hr',hrpacket,_⟩ := step_keeps hstep hr
  rw [← hqpacket] at hqid
  rw [← hrpacket] at hrid
  exact h m n q' r' id hq' hr' hqid hrid

/-- What a call that waits has kept, a step of another call leaves to it. -/
theorem step_kept (h : Kept u) (hstep : Step u label u') (hdistinct : Distinct u') : Kept u' := by
  have hbefore := step_distinct hstep hdistinct
  -- the entry stays, unless the call itself is over with it or it is answered
  have hentry : ∀ n (r : Request T) id tx, u.requests[n]? = some r → r.packet.requestId = some id →
      u.table.lookup id = some tx → (∀ attempt outcome, r.phase ≠ .cleaning attempt outcome) →
      label ≠ .register n → u'.table.lookup id = some tx ∨ ∃ packet, (tx,packet) ∈ u'.answered := by
    intro n r id tx hr hid hl hphase hlabel
    rcases step_map hstep with ⟨htable,_⟩ | ⟨m,q,id',hm,hq,hid',htable,_⟩ |
      ⟨id',tx',packet,hwait,_,htable,hanswered,_⟩ | ⟨m,q,attempt,outcome,id',hm,hq,hp,hid',htable,_⟩
    · rw [htable]
      exact .inl hl
    · have hne : id ≠ id' := by
        rintro rfl
        rw [hbefore n m r q id hr hq hid hid'] at hlabel
        exact hlabel hm
      rw [htable,Table.lookup_insert_eq,if_neg hne]
      exact .inl hl
    · by_cases hsame : id = id'
      · rw [← hsame] at hwait
        cases hl.symm.trans hwait
        rw [hanswered]
        exact .inr ⟨packet,List.mem_append_right _ (List.mem_singleton_self _)⟩
      · rw [htable,Table.lookup_erase_eq,if_neg hsame]
        exact .inl hl
    · have hne : id ≠ id' := by
        rintro rfl
        have hnm := hbefore n m r q id hr hq hid hid'
        rw [hnm] at hr
        cases hr.symm.trans hq
        exact hphase attempt outcome hp
      rw [htable,Table.lookup_erase_eq,if_neg hne]
      exact .inl hl
  have hold : ∀ n (r : Request T) attempt tx, u.requests[n]? = some r →
      r.phase = .registered attempt tx ∨ r.phase = .waiting attempt tx → label ≠ .register n →
      ∃ id, r.packet.requestId = some id ∧
        (u'.table.lookup id = some tx ∨ ∃ packet, (tx,packet) ∈ u'.answered) := by
    intro n r attempt tx hr hphase hlabel
    obtain ⟨id,hid,hl | ⟨packet,hmem⟩⟩ := h n r attempt tx hr hphase
    · refine ⟨id,hid,hentry n r id tx hr hid hl ?_ hlabel⟩
      intro attempt' outcome hp
      rw [hp] at hphase
      rcases hphase with hphase | hphase <;> cases hphase
    · exact ⟨id,hid,.inr ⟨packet,(step_stays hstep).2 _ hmem⟩⟩
  intro n r' attempt tx hr' hphase
  -- a call that has not moved
  have hstill : ∀ {m : ℕ} {q q' : Request T}, u.requests[m]? = some q → (u.requests.set m q')[n]? = some r' →
      n ≠ m → label ≠ .register n → ∃ id, r'.packet.requestId = some id ∧
        (u'.table.lookup id = some tx ∨ ∃ packet, (tx,packet) ∈ u'.answered) := by
    intro m q q' hq hset hne hlabel
    rw [getElem?_set_of_some hq,if_neg hne] at hset
    exact hold n r' attempt tx hset hphase hlabel
  -- a call that has moved on to a phase of neither kind
  have hmoved : ∀ {m : ℕ} {q q' : Request T}, u.requests[m]? = some q → (u.requests.set m q')[n]? = some r' →
      (∀ attempt tx, q'.phase ≠ .registered attempt tx ∧ q'.phase ≠ .waiting attempt tx) → n ≠ m := by
    intro m q q' hq hset hneither hn
    rw [getElem?_set_of_some hq,if_pos hn] at hset
    cases hset
    rcases hphase with hphase | hphase
    · exact (hneither attempt tx).1 hphase
    · exact (hneither attempt tx).2 hphase
  have hcleaned : ∀ (q : Request T) attempt outcome attempt' tx',
      q.cleaned attempt outcome ≠ .registered attempt' tx' ∧
        q.cleaned attempt outcome ≠ .waiting attempt' tx' := by
    intro q attempt outcome attempt' tx'
    cases outcome with
    | timedOut =>
      simp only [Request.cleaned]
      split <;> simp
    | _ => simp [Request.cleaned]
  cases hstep with
  | connect => exact hold n r' attempt tx hr' hphase (by simp)
  | sendPacket => exact hold n r' attempt tx hr' hphase (by simp)
  | outgoing => exact hold n r' attempt tx hr' hphase (by simp)
  | @incoming k result =>
    have hsame : (u.incoming k result).requests = u.requests := by cases result <;> rfl
    rw [hsame] at hr'
    exact hold n r' attempt tx hr' hphase (by simp)
  | sendRequest =>
    rcases getElem?_concat_inv hr' with hr | ⟨_,rfl⟩
    · exact hold n r' attempt tx hr hphase (by simp)
    · unfold Request.new at hphase
      split at hphase <;> rcases hphase with hphase | hphase <;> cases hphase
  | @register m q attempt' id hq hp hid =>
    by_cases hn : n = m
    · change (u.requests.set m _)[n]? = _ at hr'
      rw [getElem?_set_of_some hq,if_pos hn] at hr'
      cases hr'
      rcases hphase with hphase | hphase
      · cases hphase
        refine ⟨id,hid,.inl ?_⟩
        change (u.table.insert id u.oneshots.length).lookup id = _
        rw [Table.lookup_insert_eq,if_pos rfl]
      · cases hphase
    · exact hstill hq hr' hn (by simpa using Ne.symm hn)
  | @send m q attempt' tx' data hq hp he =>
    by_cases hn : n = m
    · change (u.requests.set m _)[n]? = _ at hr'
      rw [getElem?_set_of_some hq,if_pos hn] at hr'
      cases hr'
      rcases hphase with hphase | hphase
      · cases hphase
      · cases hphase
        exact hold m q attempt tx hq (.inl hp) (by simp)
    · exact hstill hq hr' hn (by simp)
  | encodePanics hq => exact hstill hq hr' (hmoved hq hr' (by simp)) (by simp)
  | respond hq => exact hstill hq hr' (hmoved hq hr' (by simp)) (by simp)
  | closed hq => exact hstill hq hr' (hmoved hq hr' (by simp)) (by simp)
  | timeout hq => exact hstill hq hr' (hmoved hq hr' (by simp)) (by simp)
  | @cleanUp m q attempt' outcome id hq hp hid =>
    exact hstill hq hr' (hmoved hq hr' (hcleaned q attempt' outcome)) (by simp)

/-- The call has not lost its callback. -/
def Phase.Unbroken : Phase T → Prop
  | .cleaning _ .closed => False
  | .returned (.error .disconnected) => False
  | _ => True

def AllUnbroken (u : UdpClient T) : Prop := ∀ (n : ℕ) (r : Request T), u.requests[n]? = some r →
  r.phase.Unbroken

theorem AllUnbroken.set (h : AllUnbroken u) {n : ℕ} {r r' : Request T} (hr : u.requests[n]? = some r)
    (hset : u'.requests = u.requests.set n r') (hphase : r'.phase.Unbroken) : AllUnbroken u' := by
  intro m q hq
  rw [hset,getElem?_set_of_some hr] at hq
  split at hq
  · cases hq
    exact hphase
  · exact h m q hq

/-- The callback of a call that waits is in the map, or the call has been answered. -/
theorem step_unbroken (h : AllUnbroken u) (hkept : Kept u) (hstep : Step u label u') : AllUnbroken u' := by
  cases hstep with
  | connect => exact h
  | sendPacket => exact h
  | outgoing => exact h
  | @incoming k result => cases result <;> exact h
  | sendRequest =>
    intro n r hr
    rcases getElem?_concat_inv hr with hold | ⟨_,rfl⟩
    · exact h n r hold
    · unfold Request.new
      split <;> trivial
  | register hr => exact h.set hr rfl trivial
  | send hr => exact h.set hr rfl trivial
  | encodePanics hr => exact h.set hr rfl trivial
  | respond hr => exact h.set hr rfl trivial
  | @closed n r attempt tx hr hp hd ha =>
    obtain ⟨id,_,hl | ⟨packet,hmem⟩⟩ := hkept n r attempt tx hr (.inr hp)
    · exact (hd id tx hl rfl).elim
    · exact (ha packet hmem).elim
  | timeout hr => exact h.set hr rfl trivial
  | @cleanUp n r attempt outcome id hr hp hid =>
    have hbefore := h n r hr
    rw [hp] at hbefore
    refine h.set hr rfl ?_
    cases outcome with
    | answered packet =>
      change (Phase.returned ((r.decoder packet).mapError RequestError.connectionFailed)).Unbroken
      cases r.decoder packet <;> trivial
    | closed => exact hbefore
    | timedOut =>
      simp only [Request.cleaned]
      split <;> trivial

theorem run_matched (h : Run Step new trace u) : Matched u := by
  refine h.preserves (fun _ _ _ ht hs => step_matched ht hs) ⟨?_,?_⟩
  · intro id tx hl
    simp [table,new,Pending.new] at hl
  · intro tx packet hmem
    cases hmem

theorem run_allGot (h : Run Step new trace u) : AllGot u := by
  refine h.preserves (fun _ _ _ ht hs => step_allGot ht hs) ?_
  intro n r hr
  cases hr

theorem run_unbroken (h : Run Step new trace u) (hdistinct : Distinct u) : Kept u ∧ AllUnbroken u := by
  induction h with
  | refl =>
    constructor
    · intro n r attempt tx hr
      cases hr
    · intro n r hr
      cases hr
  | snoc _ hs ih =>
    obtain ⟨hkept,hunbroken⟩ := ih (step_distinct hs hdistinct)
    exact ⟨step_kept hkept hs hdistinct,step_unbroken hunbroken hkept hs⟩

/-- A call without an id has no response, a call may time out, and any other has got a
response under its own id, unless another call has its id. -/
theorem returned_cases {n : ℕ} {r : Request T} {result : Except RequestError T}
    (h : Run Step new trace u) (hr : u.requests[n]? = some r) (hp : r.phase = .returned result) :
    r.packet.requestId = none ∨ (∃ message, result = .error (.timeout message)) ∨
    (∃ packet, u.AnsweredWith n packet ∧ responseId packet = r.packet.requestId ∧
      result = (r.decoder packet).mapError .connectionFailed) ∨
    result = .error .disconnected ∧ ¬Distinct u := by
  have hgot := run_allGot h n r hr
  rw [hp] at hgot
  rcases hgot with hnone | hclosed | htimeout | ⟨packet,hanswered,hdecoded⟩
  · exact .inl hnone
  · refine .inr (.inr (.inr ⟨hclosed,fun hdistinct => ?_⟩))
    have hunbroken := (run_unbroken h hdistinct).2 n r hr
    rw [hp,hclosed] at hunbroken
    exact hunbroken
  · exact .inr (.inl htimeout)
  · obtain ⟨tx,htx,hmem⟩ := hanswered
    obtain ⟨m,q,id,htx',hq,hqid,hresponse⟩ := (run_matched h).answers tx packet hmem
    cases htx.symm.trans htx'
    cases hr.symm.trans hq
    exact .inr (.inr (.inl ⟨packet,⟨tx,htx,hmem⟩,hresponse.trans hqid.symm,hdecoded⟩))

/-- A call returns in one of four ways: at once, after as many timeouts as there are
attempts, with what its decoder makes of a response under its own id, which comes before the
last of the attempts has timed out, or, if another call has its id, without a response. -/
theorem call_returns {n : ℕ} {r : Request T} {result : Except RequestError T}
    (h : Run Step new trace u) (hr : u.requests[n]? = some r) (hp : r.phase = .returned result) :
    r.packet.requestId = none ∧ result = .error .noRequestId ∧ sendsOf n trace = 0 ∨
    (∃ message, result = .error (.timeout message)) ∧ sendsOf n trace = maxRetryAttempts ∧
      timeoutsOf n trace = maxRetryAttempts ∨
    timeoutsOf n trace + 1 = sendsOf n trace ∧ sendsOf n trace ≤ maxRetryAttempts ∧
      ((∃ packet, u.AnsweredWith n packet ∧ responseId packet = r.packet.requestId ∧
        result = (r.decoder packet).mapError .connectionFailed) ∨
        result = .error .disconnected ∧ ¬Distinct u) := by
  have hcounts := (run_counted h).counts n r hr
  rw [hp] at hcounts
  rcases hcounts with ⟨hid,hresult,hsends,_⟩ | htimeout | ⟨hid,hresult,hsends,hle⟩
  · exact .inl ⟨hid,hresult,hsends⟩
  · exact .inr (.inl htimeout)
  · refine .inr (.inr ⟨hsends,hle,?_⟩)
    rcases returned_cases h hr hp with hnone | ⟨message,htimeout⟩ | hcome
    · exact (hid hnone).elim
    · exact (hresult message htimeout).elim
    · exact hcome

end Answers

/-- A call with the id 7. -/
def oneRequest (phase : Phase Bool) : Request Bool := ⟨.voiceAuthRequest 7 11,fun _ => .ok true,phase⟩

/-- The call is alone, with these callbacks in the map. -/
def oneCall (phase : Phase Bool) (sendTx : List Bytes) (waiting : Table UInt64 Oneshot)
    (oneshots : List ℕ) : UdpClient Bool :=
  ⟨sendTx,0,0,⟨⟨waiting,[]⟩,[],0⟩,[],[oneRequest phase],oneshots⟩

def attemptLabels : List (Label Bool) := [.register 0,.send 0,.timeout 0,.cleanUp 0]

/-- An attempt that nobody answers. -/
theorem attempt_in_vain (attempt : ℕ) (sendTx : List Bytes) (oneshots : List ℕ) :
    ∃ data, Run Step (oneCall (.starting attempt) sendTx ∅ oneshots) attemptLabels
      (oneCall ((oneRequest (.starting attempt)).cleaned attempt .timedOut) (sendTx ++ [data]) ∅
        (oneshots ++ [0])) := by
  obtain ⟨data,hdata⟩ := Packet.plain_encodes (.voiceAuthRequest 7 11) rfl rfl (by decide)
  let tx := oneshots.length
  let waiting : Table UInt64 Oneshot := (∅ : Table UInt64 Oneshot).insert 7 tx
  have hregister : Step (oneCall (.starting attempt) sendTx ∅ oneshots) (.register 0)
      (oneCall (.registered attempt tx) sendTx waiting (oneshots ++ [0])) :=
    Step.register (n := 0) (r := oneRequest (.starting attempt)) rfl rfl rfl
  have hsend : Step (oneCall (.registered attempt tx) sendTx waiting (oneshots ++ [0])) (.send 0)
      (oneCall (.waiting attempt tx) (sendTx ++ [data]) waiting (oneshots ++ [0])) :=
    Step.send (n := 0) (r := oneRequest (.registered attempt tx)) rfl rfl hdata
  have htimeout : Step (oneCall (.waiting attempt tx) (sendTx ++ [data]) waiting (oneshots ++ [0]))
      (.timeout 0) (oneCall (.cleaning attempt .timedOut) (sendTx ++ [data]) waiting (oneshots ++ [0])) :=
    Step.timeout (n := 0) (r := oneRequest (.waiting attempt tx)) rfl rfl
  have hclean : Step (oneCall (.cleaning attempt .timedOut) (sendTx ++ [data]) waiting (oneshots ++ [0]))
      (.cleanUp 0) (oneCall ((oneRequest (.starting attempt)).cleaned attempt .timedOut) (sendTx ++ [data])
        (waiting.erase 7) (oneshots ++ [0])) :=
    Step.cleanUp (n := 0) (r := oneRequest (.cleaning attempt .timedOut)) rfl rfl rfl
  have hempty : waiting.erase 7 = ∅ := by
    refine Finmap.ext_lookup fun id => ?_
    rw [Table.lookup_erase_eq]
    split
    · rfl
    · rename_i hid
      rw [Table.lookup_insert_eq,if_neg hid]
  rw [hempty] at hclean
  exact ⟨data,(((Run.single hregister).snoc hsend).snoc htimeout).snoc hclean⟩

/-- Nobody answers: three requests are sent, and the third timeout is the last. -/
theorem call_returns_in_vain : ∃ trace, ∃ u : UdpClient Bool, Run Step new trace u ∧
    sendsOf 0 trace = maxRetryAttempts ∧ timeoutsOf 0 trace = maxRetryAttempts := by
  have hask : Step new (.sendRequest (.voiceAuthRequest 7 11) fun _ => .ok true)
    (oneCall (.starting 1) [] ∅ []) := .sendRequest
  obtain ⟨data1,hfirst⟩ := attempt_in_vain 1 [] []
  obtain ⟨data2,hsecond⟩ := attempt_in_vain 2 ([] ++ [data1]) ([] ++ [0])
  obtain ⟨data3,hthird⟩ := attempt_in_vain 3 ([] ++ [data1] ++ [data2]) ([] ++ [0] ++ [0])
  have hrun := (((Run.single hask).append hfirst).append hsecond).append hthird
  refine ⟨_,_,hrun,?_⟩
  rcases call_returns (n := 0) hrun rfl rfl with
    ⟨_,hresult,_⟩ | ⟨_,hsends,htimeouts⟩ | ⟨hcounts,_⟩
  · cases hresult
  · exact ⟨hsends,htimeouts⟩
  · cases hcounts

end VoiceApp.Sdk.UdpClient
