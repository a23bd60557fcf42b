import BuildPipeline.Cluster.Api

namespace BuildPipeline

open Document

/-- A rehearsed exchange with a server: its replies are written down beforehand, each
perhaps cancelling the run while it is given, and requests and pauses are recorded.  A run
can also cancel itself when it pauses for a certain time. -/
structure ExchangeEntry where
  reply : ApiReply
  cancels : Bool := false

structure Exchange where
  entries : List ExchangeEntry := []
  cancelled : Bool := false
  cancelAtPause : Option Nat := none
  pauses : Nat := 0
  requests : List ApiRequest := []
  waits : List Float := []

namespace Exchange

def send (request : ApiRequest) (exchange : Exchange) : ApiReply × Exchange :=
  let asked := { exchange with requests := exchange.requests ++ [request] }
  match asked.entries with
  | [] => (.refused (.runtime "script exhausted"), asked)
  | entry :: rest =>
      (entry.reply,
        { asked with
          entries := rest
          cancelled := asked.cancelled || entry.cancels })

def pause (inRun : Bool) (seconds : Float) (exchange : Exchange) : Bool × Exchange :=
  let waited := { exchange with waits := exchange.waits ++ [seconds] }
  if inRun then
    let pauses := waited.pauses + 1
    let cancelled := waited.cancelled || waited.cancelAtPause == some pauses
    (cancelled, { waited with pauses, cancelled })
  else (false, waited)

def transport : Transport Exchange where
  send := send
  pause := pause

end Exchange

end BuildPipeline
