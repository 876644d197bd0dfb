/-!
A bus carries signals from paths to the readers that are subscribed to them. A new reader gets the
last signal of its path first, and then every signal that is published there.
-/

namespace Cadence

structure Subscription (ρ α : Type) where
  reader : ρ
  path : String
  queue : List α

structure Bus (ρ α : Type) where
  last : List (String × α)
  subscriptions : List (Subscription ρ α)

namespace Bus
variable {ρ α : Type}

def empty : Bus ρ α := ⟨[], []⟩

def last? (path : String) (bus : Bus ρ α) : Option α := bus.last.lookup path

def publish (path : String) (signal : α) (bus : Bus ρ α) : Bus ρ α where
  last := (path, signal) :: bus.last.filter (·.1 ≠ path)
  subscriptions := bus.subscriptions.map fun s =>
    if s.path = path then { s with queue := s.queue ++ [signal] } else s

/-- The readers that a signal on a path would wake, as nothing waits for them yet. -/
def idleReaders (path : String) (bus : Bus ρ α) : List ρ :=
  (bus.subscriptions.filter fun s => s.path = path && s.queue.isEmpty).map (·.reader)

def subscribe (reader : ρ) (path : String) (bus : Bus ρ α) : Bus ρ α :=
  { bus with subscriptions := bus.subscriptions ++ [⟨reader, path, (bus.last? path).toList⟩] }

def count (path : String) (bus : Bus ρ α) : Nat :=
  bus.subscriptions.countP (·.path = path)

variable [DecidableEq ρ]

def queued (reader : ρ) (bus : Bus ρ α) : List α :=
  ((bus.subscriptions.find? fun s => s.reader = reader).map (·.queue)).getD []

def take (reader : ρ) (number : Nat) (bus : Bus ρ α) : Bus ρ α :=
  { bus with
    subscriptions := bus.subscriptions.map fun s =>
      if s.reader = reader then { s with queue := s.queue.drop number } else s }

def close (reader : ρ) (bus : Bus ρ α) : Bus ρ α :=
  { bus with subscriptions := bus.subscriptions.filter (·.reader ≠ reader) }

end Bus
end Cadence
