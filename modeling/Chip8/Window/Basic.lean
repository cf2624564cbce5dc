import Chip8.Machine.Basic
import Chip8.Window.Phosphor

namespace Chip8

structure PhysicalKey where
  name : String
  deriving DecidableEq, Repr

namespace PhysicalKey

def layout : Vector PhysicalKey 16 :=
  #v[⟨"KeyX"⟩, ⟨"Digit1"⟩, ⟨"Digit2"⟩, ⟨"Digit3"⟩, ⟨"KeyQ"⟩, ⟨"KeyW"⟩, ⟨"KeyE"⟩, ⟨"KeyA"⟩,
    ⟨"KeyS"⟩, ⟨"KeyD"⟩, ⟨"KeyZ"⟩, ⟨"KeyC"⟩, ⟨"Digit4"⟩, ⟨"KeyR"⟩, ⟨"KeyF"⟩, ⟨"KeyV"⟩]

def key? (p : PhysicalKey) : Option Nibble := layout.finIdxOf? p

end PhysicalKey

structure Size where
  width : Nat
  height : Nat
  deriving DecidableEq, Repr

inductive WindowCall where
  | create (title : String) (size least : Size)
  | redraw
  | setTitle (title : String)
  deriving DecidableEq, Repr

def WindowCall.describe : WindowCall → String
  | .create title size least => "create " ++ title ++ " " ++ toString size.width ++ "x" ++
      toString size.height ++ " min " ++ toString least.width ++ "x" ++ toString least.height
  | .redraw => "redraw"
  | .setTitle title => "title " ++ title

inductive Refusal where
  | window (reason : String)
  | surface (reason : String)
  | resize (reason : String)
  | render (reason : String)
  deriving DecidableEq, Repr

def Refusal.message : Refusal → String
  | .window reason => "Failed to create window: " ++ reason
  | .surface reason => "Failed to create pixels surface: " ++ reason
  | .resize reason => "Failed to resize pixels surface: " ++ reason
  | .render reason => "Pixels render error: " ++ reason

def Size.ofSurface (s : Size) : Size := ⟨max 1 s.width, max 1 s.height⟩

structure Surface where
  size : Size
  pixels : Vector Rgba 2048 := Vector.replicate 2048 {}

structure Window where
  machine : Machine
  frame : Picture := .blank
  phosphor : Phosphor := {}
  surface : Option Surface := none
  isOpen : Bool := false
  halted : Bool := false
  exited : Bool := false
  failure : Option Refusal := none

inductive WindowEvent where
  | closeRequested
  | resized (size : Size)
  | redrawRequested (seconds : Float32)
  | key (place : PhysicalKey) (escape : Bool) (down : Bool) (again : Bool)
  | other

namespace Window

def title : String := "chip8-vm"

def haltedTitle : String := title ++ " (halted)"

def leastSize : Size := ⟨64, 32⟩

def initialSize : Size := ⟨640, 320⟩

def start (options : Options) (devices : Devices) (image : List UInt8) : Window × Machine.Start :=
  let (machine, s) := { options, devices : Machine }.start image
  ({ machine }, s)

def fail (w : Window) (r : Refusal) : Window := { w with exited := true, failure := some r }

/-- Opens the window and its surface. A refused surface leaves the new window without calls beyond
its creation, and the old surface in place. -/
def resume (w : Window) (refused : Option Refusal) : Window × List WindowCall :=
  let create := WindowCall.create title initialSize leastSize
  match refused with
  | some (.window reason) => (w.fail (.window reason), [])
  | some (.surface reason) => ({ w with isOpen := true }.fail (.surface reason), [create])
  | _ => ({ w with isOpen := true, surface := some { size := initialSize } }, [create, .redraw])

def display (w : Window) (seconds : Float32) : Window :=
  let (screen, p) := w.machine.devices.screen.take
  let frame := p.getD w.frame
  let w := { w with
    machine := { w.machine with devices := { w.machine.devices with screen } }
    frame }
  match w.surface with
  | none => w
  | some s =>
    let phosphor := w.phosphor.glow frame seconds
    { w with
      phosphor
      surface := some { s with pixels := phosphor.brightness.map Phosphor.color } }

def callIfOpen (w : Window) (c : WindowCall) : List WindowCall := if w.isOpen then [c] else []

def checkHealth (w : Window) : Window × List WindowCall :=
  if w.halted || w.machine.isHealthy then (w, [])
  else ({ w with halted := true }, w.callIfOpen (.setTitle haltedTitle))

def redraw (w : Window) (seconds : Float32) (refused : Option Refusal) :
    Window × List WindowCall :=
  let (w, calls) := w.checkHealth
  let w := w.display seconds
  match w.surface, refused with
  | some _, some (.render reason) => (w.fail (.render reason), calls)
  | _, _ => (w, calls ++ w.callIfOpen .redraw)

def resize (w : Window) (size : Size) (refused : Option Refusal) : Window :=
  match w.surface, refused with
  | none, _ => w
  | some _, some (.resize reason) => w.fail (.resize reason)
  | some s, _ => { w with surface := some { s with size := size.ofSurface } }

def handleKey (w : Window) (place : PhysicalKey) (escape down again : Bool) : Window :=
  if escape then { w with exited := true }
  else if again then w
  else
    match place.key? with
    | some k => { w with machine := w.machine.setKey k down }
    | none => w

def handle (w : Window) (e : WindowEvent) (refused : Option Refusal) : Window × List WindowCall :=
  match e with
  | .closeRequested => ({ w with exited := true }, [])
  | .resized size => (w.resize size refused, [])
  | .redrawRequested seconds => w.redraw seconds refused
  | .key place escape down again => (w.handleKey place escape down again, [])
  | .other => (w, [])

def exiting (w : Window) : Window := { w with machine := w.machine.stop }

end Window

end Chip8
