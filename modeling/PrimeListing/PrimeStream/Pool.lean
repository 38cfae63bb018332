/-
A pool of independent prime streams, one of which is in focus.

Actions go to the stream in focus.  A pool grows by a fresh stream or by a
copy of the one in focus, and the new one comes into focus; selecting a
position brings the stream there into focus.  Every step is followed by a
report, which closes with the number of candidates that the stream in focus
has tested.
-/
import PrimeListing.PrimeStream.Action

namespace PrimeListing.PrimeStream

/-- Streams in the order in which they were added, and the position in focus. -/
structure Pool where
  streams : List PrimeStream
  focus : Nat
  focus_lt : focus < streams.length

namespace Pool

/-- The pool of one fresh stream. -/
def start : Pool := { streams := [{}], focus := 0, focus_lt := Nat.zero_lt_one }

/-- The stream in focus. -/
def focused (p : Pool) : PrimeStream := p.streams.get ⟨p.focus, p.focus_lt⟩

def replace (p : Pool) (s : PrimeStream) : Pool where
  streams := p.streams.set p.focus s
  focus := p.focus
  focus_lt := by simpa using p.focus_lt

/-- Add a stream at the end and bring it into focus. -/
def push (p : Pool) (s : PrimeStream) : Pool where
  streams := p.streams ++ [s]
  focus := p.streams.length
  focus_lt := by simp

/-- What is done to a pool in one step. -/
inductive Step
  | act (a : Action)
  | fresh
  | copy
  | select (i : Nat)
  deriving DecidableEq

/-- What a step brings forth. -/
inductive Reply
  | answer (a : Answer)
  | position (i : Nat)
  deriving DecidableEq

/-- A reply, and the candidates tested by the stream then in focus. -/
structure Report where
  reply : Reply
  tested : UInt64
  deriving DecidableEq

/-- Close a step: the reply with the count of the stream now in focus. -/
def report (p : Pool) (r : Reply) : Report × Pool :=
  ({ reply := r, tested := p.focused.tested }, p)

/-- One step; none where it selects a position outside the pool. -/
def step (p : Pool) : Step → Option (Report × Pool)
  | .act a =>
    let (answer, s) := p.focused.act a
    some ((p.replace s).report (.answer answer))
  | .fresh => some ((p.push {}).report (.position p.streams.length))
  | .copy => some ((p.push p.focused).report (.position p.streams.length))
  | .select i =>
    if h : i < p.streams.length then
      some (({ p with focus := i, focus_lt := h } : Pool).report (.position i))
    else none

/-- The reports of a sequence of steps and the pool they leave; none where a step is refused. -/
def run (p : Pool) : List Step → Option (List Report × Pool)
  | [] => some ([], p)
  | st :: rest => do
    let (r, q) ← p.step st
    let (rs, final) ← q.run rest
    return (r :: rs, final)

end Pool

end PrimeListing.PrimeStream
