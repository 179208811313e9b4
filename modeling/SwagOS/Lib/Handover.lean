import Mathlib.Data.List.Basic

/-!
# Handing messages over

Messages pass through a place for one of them to clients, each of whom takes what it finds
there and gives it back to its caller later.  No message gets lost or doubled, and they come
back in their order, as long as the place is used for one message at a time, each message is
taken once and the clients give back what they took in the order in which they took it.
-/

namespace SwagOS.Lib

/-- What happened to the messages so far. -/
structure Handover (Client Message : Type*) where
  accepted : List Message
  returned : List Message
  /-- What the clients have and have not given back, in the order in which they took it. -/
  taken : List (Client × Message)
  /-- The message that no client has taken. -/
  unread : Option Message

namespace Handover

variable {Client Message : Type*}

def empty : Handover Client Message := ⟨[], [], [], none⟩

def store (h : Handover Client Message) (message : Message) : Handover Client Message :=
  { h with accepted := h.accepted ++ [message], unread := some message }

def take (h : Handover Client Message) (client : Client) (message : Message) :
    Handover Client Message :=
  { h with taken := h.taken ++ [(client, message)], unread := none }

def clear (h : Handover Client Message) : Handover Client Message := { h with unread := none }

def give [DecidableEq Client] (h : Handover Client Message) (client : Client)
    (message : Message) : Handover Client Message :=
  { h with
    returned := h.returned ++ [message]
    taken := h.taken.eraseP fun held => held.1 = client }

/-- The accepted messages are those that came back and then those that are on their way, in
their order. -/
def Conserved (h : Handover Client Message) : Prop :=
  h.accepted = h.returned ++ h.taken.map Prod.snd ++ h.unread.toList

theorem conserved_empty : (empty : Handover Client Message).Conserved := rfl

variable {h : Handover Client Message} {client : Client} {message : Message}

theorem Conserved.store (conserved : h.Conserved) (free : h.unread = none) :
    (h.store message).Conserved := by
  have whole : h.accepted = h.returned ++ h.taken.map Prod.snd := by
    rw [conserved, free, Option.toList_none, List.append_nil]
  show h.accepted ++ [message] = h.returned ++ h.taken.map Prod.snd ++ [message]
  rw [whole]

theorem Conserved.take (conserved : h.Conserved) (there : h.unread = some message) :
    (h.take client message).Conserved := by
  show h.accepted = h.returned ++ (h.taken ++ [(client, message)]).map Prod.snd ++ []
  rw [conserved, there, Option.toList_some, List.map_append, List.append_nil]
  exact List.append_assoc h.returned (h.taken.map Prod.snd) [message]

theorem Conserved.clear (conserved : h.Conserved) (free : h.unread = none) :
    h.clear.Conserved := by
  have whole := conserved
  rw [Conserved, free] at whole
  exact whole

theorem Conserved.give [DecidableEq Client] (conserved : h.Conserved)
    {rest : List (Client × Message)} (first : h.taken = (client, message) :: rest) :
    (h.give client message).Conserved := by
  have tail : h.taken.eraseP (fun held => held.1 = client) = rest := by
    rw [first]
    exact List.eraseP_cons_of_pos (by simp)
  show h.accepted = h.returned ++ [message] ++
    (h.taken.eraseP fun held => held.1 = client).map Prod.snd ++ h.unread.toList
  rw [tail, conserved, first, List.map_cons]
  simp only [List.append_assoc, List.cons_append, List.nil_append]

end Handover

end SwagOS.Lib
