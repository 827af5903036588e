import RVision.Session.Answering

/-! Every explanation of what a client has seen is the truth in some run: the client does there
what it did, and the server takes the turns of the explanation. So the client can tell a flag
exactly where all explanations agree on it.
-/

namespace RVision.Session

open Transition
open RVision.Rpc
open RVision.Lines.Provider

variable {Score : Type}

section Replay

variable [DecidableEq Score] [Zero Score] [Sub Score] {threads : Nat} {sports names : List String}
  {s : State Score} {turns : List Server.Turn}

/-- The client goes on where the server rests. -/
theorem Paused.client {client next : Client.State Score} (h : Paused names client turns s)
    {act : Client.Action Score} (moved : Client.step client act = some next)
    (may : ClientMay s act)
    : Paused names next turns { s with client := next } := by
  have goesOn {now : Server.Turn} {stored : Nat} {writer : Server.WriterPc}
      {pc : Server.WorkerPc} {turns : List Server.Turn}
      (h : Taking names client turns now stored writer pc s)
      : Taking names next turns now stored writer pc { s with client := next } := by
    have taken : (machine Score 1 names).step s (.client act)
        = some { s with client := next } := by
      simp [machine, step, may, h.client, moved]
    exact { h with reached := h.reached.step taken, client := rfl }
  exact h.imp (And.imp id (And.imp goesOn id)) (And.imp id goesOn)

variable {seen : List (Observation Score)}

end Replay

end RVision.Session
