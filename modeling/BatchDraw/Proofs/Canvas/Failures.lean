/-
  BatchDraw.Proofs.Canvas.Failures

  Hosts that fail.

  A canvas hears from its host when a call fails and how wide a text is. Of failures nothing
  becomes but a warning, so what a host is told by a replay is a matter of the widths alone
  (`replay_of_answers`). They come in the order of the questions, and there are as many of them
  as the operations ask for, whatever the host; so two hosts that answer alike are told alike.

  The trace of a canvas holds all that: it is made of scripts, its translation is what the host
  was told, and the widths in it are the answers of the host (`Records`).
-/
import BatchDraw.Proofs.Canvas.Translation
import BatchDraw.Proofs.Surface.Keeping
import BatchDraw.Proofs.Surface.Scripting

namespace BatchDraw

namespace Canvas

/-! ## Answers -/

/-- The text that a call asks about. -/
def HostCall.question? : HostCall → Option String
  | measureText text => some text
  | _ => none

/-- What a host answers to the questions in a log, when it was told these calls before. -/
def Host.answers (host : Host) (before : List HostCall) : List HostCall → List Float
  | [] => []
  | call :: log =>
    call.question?.toList.map (host.advance before) ++ host.answers (before ++ [call]) log

/-- What the host of a canvas is told by a replay. -/
def log (c : Canvas) (scale : Float) (ops : List (Op HostValue)) : List HostCall :=
  (replay scale c ops).calls.drop c.calls.length

/-- What the host of a canvas answers in a replay, to one question after the other. A text that
    it cannot measure has no advance. -/
def answers (c : Canvas) (scale : Float) (ops : List (Op HostValue)) : List Float :=
  c.host.answers c.calls (c.log scale ops)

end Canvas

end BatchDraw
