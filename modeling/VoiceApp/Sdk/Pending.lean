import VoiceApp.Base.Table
import VoiceApp.Protocol.RoundTrip

/-! # Requests waiting for their responses

Both clients keep a map from request ids to oneshot channels. A channel is named by a
number that is never used twice; a response sent into one is kept with its name.
-/
namespace VoiceApp.Sdk
open Protocol

abbrev Oneshot := ℕ

/-- How a request fails. -/
inductive RequestError
  | connectionFailed (message : String)
  | disconnected
  | timeout (message : String)
  deriving DecidableEq

/-- The error of a request without a request id. -/
def RequestError.noRequestId : RequestError := .connectionFailed "Packet does not have request_id"

structure Pending where
  waiting : Table UInt64 Oneshot
  answered : List (Oneshot × Packet)

/-- A place of a list is written over. -/
theorem getElem?_set_of_some {A : Type} {l : List A} {n : ℕ} {a : A} (h : l[n]? = some a) (a' : A) (m : ℕ) :
    (l.set n a')[m]? = if m = n then some a' else l[m]? := by
  obtain ⟨hlt,_⟩ := List.getElem?_eq_some_iff.mp h
  by_cases hm : m = n
  · rw [if_pos hm,hm]
    exact List.getElem?_set_self hlt
  · rw [if_neg hm]
    exact List.getElem?_set_ne (Ne.symm hm)

/-- What a list holds stays in its place as the list grows. -/
theorem getElem?_append_of_some {A : Type} {l : List A} {n : ℕ} {a : A} (h : l[n]? = some a)
    (more : List A) : (l ++ more)[n]? = some a := by
  obtain ⟨hlt,_⟩ := List.getElem?_eq_some_iff.mp h
  rw [List.getElem?_append_left hlt,h]

theorem getElem?_concat_inv {A : Type} {l : List A} {n : ℕ} {a b : A} (h : (l ++ [b])[n]? = some a) :
    l[n]? = some a ∨ n = l.length ∧ a = b := by
  rcases Nat.lt_or_ge n l.length with hlt | hge
  · rw [List.getElem?_append_left hlt] at h
    exact .inl h
  · rw [List.getElem?_append_right hge,List.getElem?_singleton] at h
    split at h
    · cases h
      exact .inr ⟨by omega,rfl⟩
    · cases h

namespace Pending

def new : Pending := ⟨∅,[]⟩

/-- `pending.insert(request_id, tx)` -/
def register (p : Pending) (requestId : UInt64) (tx : Oneshot) : Pending :=
  { p with waiting := p.waiting.insert requestId tx }

/-- `if let Some(tx) = pending.remove(&req_id) { let _ = tx.send(packet); }`, with the
outcome of the test. -/
def resolve (p : Pending) (requestId : Option UInt64) (packet : Packet) : Pending × Bool :=
  match requestId with
  | none => (p,false)
  | some requestId =>
    match p.waiting.lookup requestId with
    | some tx => (⟨p.waiting.erase requestId,p.answered ++ [(tx,packet)]⟩,true)
    | none => (p,false)

/-- A response takes an entry out or leaves the map alone. -/
theorem resolve_cases (p : Pending) (requestId : Option UInt64) (packet : Packet) :
    p.resolve requestId packet = (p,false) ∨ ∃ id tx, requestId = some id ∧
      p.waiting.lookup id = some tx ∧
      p.resolve requestId packet = (⟨p.waiting.erase id,p.answered ++ [(tx,packet)]⟩,true) := by
  cases requestId with
  | none => exact .inl rfl
  | some id =>
    cases hlookup : p.waiting.lookup id with
    | none => simp [resolve,hlookup]
    | some tx => exact .inr ⟨id,tx,rfl,hlookup,by simp [resolve,hlookup]⟩

theorem resolve_all {p : Pending} {P : UInt64 → Oneshot → Prop} (h : p.waiting.All P)
    (requestId : Option UInt64) (packet : Packet) : (p.resolve requestId packet).1.waiting.All P := by
  rcases p.resolve_cases requestId packet with hsame | ⟨id,tx,_,_,htaken⟩
  · rw [hsame]
    exact h
  · rw [htaken]
    exact (h.erase id).mono fun _ _ hk => hk.2

end Pending
end VoiceApp.Sdk
