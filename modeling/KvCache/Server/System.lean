import KvCache.Server.HostWorker
import KvCache.Foundation.Run

/-!
# Runs of the server

A step of the server is a step of one party. Every interleaving of the parties is a
run, and the clients may ask for anything at any time.
-/

namespace KvCache.Server

open HashIndex

/-- The steps of the parties. -/
inductive Action where
  | brisc
  | ncrisc
  | worker
  | serve (client : Nat)
  | establish (client : Nat)
  | startPut (client : Nat) (key : Key) (value : Bytes) (seq : Nat)
  | startOperation (client : Nat) (operation : Operation)
  | streamChunk (client : Nat)
  | landPut (client : Nat)
deriving DecidableEq, Repr

/-- One step of the server. -/
def step (cfg : Config) (sys : Sys) : Action → Option Outcome
  | .brisc => briscStep cfg sys
  | .ncrisc => ncriscStep sys
  | .worker => workerStep cfg sys
  | .serve client => serveClient client sys
  | .establish client => establish client sys
  | .startPut client key value seq => startPut cfg client key value seq sys
  | .startOperation client operation => startOperation client operation sys
  | .streamChunk client => streamChunk client sys
  | .landPut client => landPut client sys

/-- The steps of the server with their events. -/
abbrev Steps (cfg : Config) : Sys → List Event → Sys → Prop := Run.Takes (step cfg)

/-- A run of the server from cold start. -/
abbrev ServerRun (cfg : Config) : List Event → Sys → Prop := Run.Run (Steps cfg) (coldSys cfg)

/-- A state that some run ends in. -/
abbrev Reached (cfg : Config) : Sys → Prop := Run.Reachable (Steps cfg) (coldSys cfg)

/-- A run whose steps all start where a condition holds. -/
abbrev GuardedRun (cfg : Config) (Meets : Sys → Prop) : List Event → Sys → Prop :=
  Run.Run (Run.Restrict (Steps cfg) Meets) (coldSys cfg)

end KvCache.Server
