import StackSampler.Attach.Controller
import StackSampler.Simulation.Shell

/-!
# Scenes

This is no part of the profiler.  A scene is one possible surrounding of a controller, with a
behaviour that is laid down beforehand: which programs run, what lies at the channel's path, and what
is done, at once or some milliseconds later, when something is injected.  What is proved of
controllers holds in any surroundings, and no result is about this module.
-/

namespace StackSampler.Simulation

open Attach

/-- What lies at the channel's path. -/
inductive ChannelEntry where
  | nothing
  | file
  | folder
  /-- The channel, with the bytes that have not been read. -/
  | pipe (content : List UInt8)
deriving DecidableEq, Repr

/-- Something that happens later. -/
inductive SceneEvent where
  /-- A dump is written to the channel. -/
  | reply (bytes : List UInt8)
  /-- The controller is asked to stop. -/
  | stop
deriving DecidableEq, Repr

/-- What is done when something is injected. -/
structure InjectorScript where
  /-- The verb whose injection fails. -/
  failing : Option String := none
  /-- Why it fails. -/
  message : String := ""
  /-- The dump that is written when one is asked for, and after how many milliseconds. -/
  reply : Option (List UInt8 × Nat) := none
  /-- The program that is ended. -/
  kills : Option Int := none
  stops : Bool := false
  /-- Milliseconds after which the controller is asked to stop. -/
  stopsAfter : Option Nat := none

/-- Who injects. -/
inductive SceneInjector where
  | scripted (script : InjectorScript)
  | program (name : String)

/-- A call of the scripted injector. -/
structure InjectorCall where
  pid : Int
  bootstrap : Bootstrap
  mode : Mode
  /-- Whether the channel stood at its path. -/
  channelStood : Bool
deriving DecidableEq, Repr

/-- The state of a scene. -/
structure Scene where
  injector : SceneInjector
  /-- The programs that run. -/
  running : List Int
  /-- Whether the channel's folder exists. -/
  hasFolder : Bool := true
  entry : ChannelEntry := .nothing
  stopRequested : Bool := false
  /-- Milliseconds. -/
  clock : Nat := 0
  /-- What happens later, and when. -/
  agenda : List (Nat × SceneEvent) := []
  calls : List InjectorCall := []

namespace Scene

/-- Something happens.  A dump reaches the channel only while it stands. -/
def happen (scene : Scene) : SceneEvent → Scene
  | .stop => { scene with stopRequested := true }
  | .reply bytes =>
      match scene.entry with
      | .pipe content => { scene with entry := .pipe (content ++ bytes) }
      | _ => scene

/-- Something happens after so many milliseconds. -/
def schedule (scene : Scene) (delay : Nat) (event : SceneEvent) : Scene :=
  if delay = 0 then scene.happen event
  else { scene with agenda := scene.agenda ++ [(scene.clock + delay, event)] }

/-- A millisecond passes. -/
def tick (scene : Scene) : Scene :=
  let clock := scene.clock + 1
  let due := scene.agenda.filter fun (time, _) => time ≤ clock
  let scene := { scene with
    clock := clock
    agenda := scene.agenda.filter fun (time, _) => clock < time }
  due.foldl (fun scene (_, event) => scene.happen event) scene

/-- The scripted injector does its part. -/
def follow (script : InjectorScript) (bootstrap : Bootstrap) (scene : Scene) : Scene :=
  let scene := match bootstrap, script.reply with
    | .where, some (bytes, delay) => scene.schedule delay (.reply bytes)
    | _, _ => scene
  let scene := match script.kills with
    | some pid => { scene with running := scene.running.filter (· != pid) }
    | none => scene
  let scene := match script.stopsAfter with
    | some delay => scene.schedule delay .stop
    | none => scene
  if script.stops then { scene with stopRequested := true } else scene

/-- Whether the channel stands. -/
def hasChannel (scene : Scene) : Bool :=
  scene.entry matches .pipe _

/-- Something is injected. -/
def inject (pid : Int) (bootstrap : Bootstrap) (configuration : Configuration) :
    StateM Scene (Except String Unit) := do
  let scene ← get
  match scene.injector with
  | .program name =>
      let command := injectionCommand name pid bootstrap configuration (channelName pid)
      pure (injectionResult name (Shell.run command []))
  | .scripted script =>
      let call : InjectorCall := ⟨pid, bootstrap, configuration.mode, scene.hasChannel⟩
      let scene := { scene with calls := scene.calls ++ [call] }
      if script.failing == some bootstrap.verb then
        set scene
        pure (.error script.message)
      else
        set (scene.follow script bootstrap)
        pure (.ok ())

/-- What lies at the channel's path is removed, unless it is a folder. -/
def removeChannel : StateM Scene RemoveAnswer := do
  let scene ← get
  match scene.entry with
  | .nothing => pure .absent
  | .folder => pure (.failed isADirectory)
  | _ => do
      set { scene with entry := .nothing }
      pure .removed

/-- The channel is made. -/
def makeChannel : StateM Scene (Except String Unit) := do
  let scene ← get
  if !scene.hasFolder then pure (.error noSuchFile)
  else if scene.entry != .nothing then pure (.error "File exists (os error 17)")
  else do
    set { scene with entry := .pipe [] }
    pure (.ok ())

/-- The most bytes that one read takes. -/
def readLimit : Nat := 64 * 1024

/-- The channel is read.  Whoever writes to it does so at once and closes it. -/
def readChannel : StateM Scene ReadAnswer := do
  let scene ← get
  match scene.entry with
  | .pipe content =>
      if content.isEmpty then pure .ended
      else do
        set { scene with entry := .pipe (content.drop readLimit) }
        pure (.data (content.take readLimit))
  | _ => pure .ended

/-- The scene as the surroundings of a controller. -/
def surroundings : Surroundings Scene where
  isAlive pid := do pure ((← get).running.contains pid)
  inject := inject
  removeChannel _ := removeChannel
  makeChannel _ := makeChannel
  permitChannel _ := pure (.ok ())
  openChannel _ := pure (.ok ())
  readChannel _ := readChannel
  now := do pure ((← get).clock * 1000000)
  stopRequested := do pure (← get).stopRequested
  pause := modify tick
  launch command extra := pure (Shell.run command extra)

/-- The number of files that are left. -/
def leftOver (scene : Scene) : Nat :=
  if scene.entry = .nothing then 0 else 1

end Scene

end StackSampler.Simulation
