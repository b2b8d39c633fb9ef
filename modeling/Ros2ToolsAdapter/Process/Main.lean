import Ros2ToolsAdapter.Adapter.Binding
import Ros2ToolsAdapter.Foundation.Embedding

/-!
# The process

`main`: the bootstrap file, the environment ROS reads, the node, the capabilities, the session with
the runtime, a thread that spins the executor, and the wait for a reason to stop. Everything outside
of it is a call whose answer is the environment's, and most of these calls can throw.

An exception on its way up meets one of two things. In the scope of a `std::thread` that has not
been joined it ends the process, and otherwise `main` reports it and returns 1. So the order of the
calls matters, and `Booted` is the order in which they have been made when the thread is spawned.
-/

namespace Ros2ToolsAdapter.Process

open Interaction

/-! ## The signature -/

/-- `xgc2::adapter_runtime::LogLevel`. -/
inductive LogLevel
  | debug
  | info
  | warning
  | error
  deriving DecidableEq

/-- The signals that are handled. -/
inductive Signal
  | sigint
  | sigterm
  deriving DecidableEq

/-- The two `std::atomic<bool>` of the process. -/
inductive Flag
  | stopRequested
  | sessionLost
  deriving DecidableEq

/-- What other threads, and signals, run while `main` does. -/
inductive Handler
  | handleSignal
  | stopRequested (reason : Str)
  | sessionLost (reason : Str)
  | logRuntime (level : LogLevel) (message : Str)

/-- `xgc2::adapter_runtime::ClientConfig`, with the fields that `main` uses. -/
structure RuntimeConfig where
  client : ClientConfig
  initialSpec : AdapterInstanceSpec
  dispatchWorkers : ℕ

/-- `xgc2::adapter_runtime::ClientCallbacks`: the calls of the adapter, and the handlers. -/
structure ClientCallbacks where
  applyInstanceSpec : AdapterInstanceSpec → Invocation
  clearInstanceSpec : Invocation
  stopRequested : Str → Handler
  sessionLost : Str → Handler
  log : LogLevel → Str → Handler

/-- A call of the process to what is outside of it. -/
inductive Call
  | writeOut (text : Str)
  | writeErr (text : Str)
  | fromBootstrapFile (path : Str)
  | setenv (name value : Str)
  | unsetenv (name : Str)
  | rclcppInit (domainId : ℕ)
  | makeNode (name : Str)
  | makeExecutor (threads : ℕ)
  | addNode
  | bind (call : BindCall)
  | signal (number : Signal) (handler : Handler)
  | makeClient (config : RuntimeConfig) (callbacks : ClientCallbacks)
  | runtimeStart
  | spawnExecutorThread
  | log (logger : Str) (level : LogLevel) (text : Str)
  | rclcppOk
  | load (flag : Flag)
  | store (flag : Flag) (value : Bool)
  | sleepFor (milliseconds : ℕ)
  | runtimeStop
  | executorCancel
  | joinExecutorThread
  | removeNode
  | rclcppShutdown

/-- What a call returns: a call of a library that can throw, an `Except` with the text of the
exception; a call that reports through `errno`, one with the text of that. -/
@[reducible] def Call.Answer : Call → Type
  | .writeOut _ | .writeErr _ | .signal .. | .store .. | .sleepFor _ => Unit
  | .fromBootstrapFile _ => Except Str RuntimeConfig
  | .bind _ => Acceptance
  | .runtimeStart => Except Str Acceptance
  | .rclcppOk => Except Str Bool
  | .load _ => Bool
  | _ => Except Str Unit

abbrev CallEvent := Event Call Call.Answer

abbrev Run := Trace Call Call.Answer

/-- What ends a block early: an exception, `std::exit`, or `std::terminate`. Only the first can be
caught. -/
inductive Interrupt
  | exception (e : Exn)
  | exit (code : ℕ)
  | terminate
  deriving DecidableEq

/-- A block of the process's code. -/
abbrev Code := Proc Interrupt Call Call.Answer

/-- Call a library, and throw what it throws. -/
def callStd {α : Type} (call : Call) (result : call.Answer → Except Str α) : Code α :=
  Proc.invoke call fun answer ↦ (ofStd (result answer)).mapError .exception

/-- `throw std::runtime_error(what)` and its like. -/
def raise {α : Type} (what : Str) : Code α := throw (.exception (.std what))

/-- The calls of the binding are calls of the process. -/
def bindEmbedding : Embedding BindCall BindCall.Answer Call Call.Answer where
  op := .bind
  answer _ := Equiv.refl _

/-! ## Handlers -/

namespace Handler

def adapterLogger : Str := "xgc_ros2_tools_adapter"

def runtimeLogger : Str := "xgc_ros2_tools_adapter.runtime"

def code : Handler → Code Unit
  | .handleSignal => Proc.perform (Call.store .stopRequested true)
  | .stopRequested reason => do
    callStd (.log adapterLogger .info ("Adapter Runtime requested process stop: " ++ reason)) id
    Proc.perform (Call.store .stopRequested true)
  | .sessionLost reason => do
    callStd (.log adapterLogger .error ("Adapter Runtime session was lost: " ++ reason)) id
    -- in this order: whoever sees the request to stop sees that the session is lost
    let _ ← Proc.perform (Call.store .sessionLost true)
    Proc.perform (Call.store .stopRequested true)
  | .logRuntime level message => callStd (.log runtimeLogger level message) id

end Handler

def callbacks : ClientCallbacks where
  applyInstanceSpec := .applyInstanceSpec
  clearInstanceSpec := .clearInstanceSpec
  stopRequested := .stopRequested
  sessionLost := .sessionLost
  log := .logRuntime

/-! ## Starting -/

def usage : Str := "Usage: xgc_ros2_tools_adapter_node --adapter-bootstrap-file PATH\n"

def parseBootstrapPath : List Str → Code Str
  | [_, flag] =>
    if flag = "--help" ∨ flag = "-h" then do
      let _ ← Proc.perform (.writeOut usage)
      throw (.exit 0)
    else raise "exactly --adapter-bootstrap-file PATH is required"
  | [_, flag, path] =>
    if flag = "--adapter-bootstrap-file" ∧ path ≠ [] then pure path
    else raise "exactly --adapter-bootstrap-file PATH is required"
  | _ => raise "exactly --adapter-bootstrap-file PATH is required"

/-- A variable is unset rather than set to the empty string. -/
def setEnvironment (name value : Str) : Code Unit :=
  let unable (result : Except Str Unit) : Except Str Unit :=
    result.mapError fun text ↦ "unable to configure " ++ name ++ ": " ++ text
  if value = [] then callStd (.unsetenv name) unable
  else callStd (.setenv name (Str.cString value)) unable

/-- `NativeContext::ApplyEnvironment`. -/
def applyEnvironment (native : NativeContext) : Code Unit := do
  setEnvironment "ROS_DOMAIN_ID" (Str.ofNat native.domainId)
  setEnvironment "RMW_IMPLEMENTATION" native.rmwImplementation

/-- The check of the constructor of `ToolsAdapter`, of a node that may be null. -/
def constructToolsAdapter (node : Bool) : Code Unit :=
  if node = false then raise "ROS2 node is required" else pure ()

/-- `main` up to the executor thread. -/
def startup (build : Build) (argv : List Str) : Code NativeContext := do
  let path ← parseBootstrapPath argv
  let config ← callStd (.fromBootstrapFile path) id
  let native ← liftM ((NativeContext.fromInstanceSpec build config.initialSpec).mapError
    Interrupt.exception)
  applyEnvironment native
  callStd (.rclcppInit native.domainId) id
  callStd (.makeNode "xgc_ros2_tools_adapter") id
  callStd (.makeExecutor 4) id
  callStd .addNode id
  -- `make_shared` never returns null
  constructToolsAdapter true
  let bound ← Proc.lift ((bindCapabilities build.contract (some config.client) true).embed
    bindEmbedding)
  if bound.accepted = false then raise (bound.error.getD [])
  else do
    let _ ← Proc.perform (.signal .sigint .handleSignal)
    let _ ← Proc.perform (.signal .sigterm .handleSignal)
    callStd (.makeClient { config with dispatchWorkers := 16 } callbacks) id
    let started ← callStd .runtimeStart id
    -- `error` still has what the binding left in it when the runtime puts nothing there
    if started.accepted = false then
      raise ("Adapter Runtime startup failed: " ++ (started.error.or bound.error).getD [])
    else pure native

/-! ## Running -/

/-- `while (rclcpp::ok() && !stop_requested) sleep_for(50ms)` -/
def awaitStop : Code Unit :=
  Proc.whileDo
    (do
      let ok ← callStd .rclcppOk id
      if ok = true then do
        let stop ← Proc.perform (.load .stopRequested)
        pure (!stop)
      else pure false)
    (Proc.perform (Call.sleepFor 50))

/-- The scope of a thread that is joinable: an exception that leaves it destroys the thread. -/
def joinableScope {α : Type} (p : Code α) : Code α :=
  Proc.rethrowing p fun
    | .exception _ => .terminate
    | interrupt => interrupt

/-- `main` with the executor thread. -/
def serve : Code Unit := do
  callStd .spawnExecutorThread id
  -- joinable to the end of this block: nothing before the join detaches or moves the thread
  joinableScope do
    callStd (.log Handler.adapterLogger .info "XGC2 ROS2 Tools Adapter is ready") id
    awaitStop
    callStd .runtimeStop id
    callStd .executorCancel id
    callStd .joinExecutorThread id

/-- The rest of `main`, and its exit code. -/
def finish : Code ℕ := do
  callStd .removeNode id
  callStd .rclcppShutdown id
  let lost ← Proc.perform (.load .sessionLost)
  pure (if lost = true then 2 else 0)

/-- `catch (const std::exception &exception)` -/
def report : Interrupt → Code ℕ
  | .exception e => do
    let _ ← Proc.perform (.writeErr ("xgc_ros2_tools_adapter: " ++ e.what ++ "\n"))
    let ok ← callStd .rclcppOk id
    if ok = true then do
      callStd .rclcppShutdown id
      pure 1
    else pure 1
  | interrupt => throw interrupt

/-- How the process ends. -/
inductive Outcome
  | returned (code : ℕ)
  | exited (code : ℕ)
  | terminated
  deriving DecidableEq

def Interrupt.outcome : Interrupt → Outcome
  -- nothing catches what the handler of `main` throws
  | .exception _ => .terminated
  | .exit code => .exited code
  | .terminate => .terminated

/-- `main`. -/
def main (build : Build) (argv : List Str) : Prog Call Call.Answer Outcome :=
  Proc.catching (do
    let code ← tryCatch (do
      let _ ← startup build argv
      serve
      finish) report
    pure (.returned code))
    Interrupt.outcome

end Ros2ToolsAdapter.Process
