/-
A session: surfaces and devices side by side, the registry of who was last at work where, and the
supply of pointer numbers. Surfaces and devices are named by their place in the session. A `Step`
is one request to the session and `Session.step` answers it; a request that is refused leaves the
session as it was.
-/
import PointerRouting.Registry

namespace PointerRouting

/-- The surfaces, the devices and what they share. -/
structure Session (σ K : Type) where
  surfaces : List (Surface σ K)
  devices : List (Device K) := []
  registry : Registry := Registry.empty
  supply : PointerSupply := {}

/-- A device to be added to a session; without a pointer number it is given the next one. -/
structure DeviceDraft where
  id : DeviceId
  pointer : Option PointerId := none
  kind : PointerKind := .mouse
  primary : Bool := true
  rule : ClickRule := ClickRule.standard
  deriving DecidableEq

/-- A request to a session. -/
inductive Step (K : Type) where
  /-- Brings a report to a device. -/
  | process (device surface : Nat) (report : Report)
  /-- Tells a device that the scene has changed within an area. -/
  | sceneChanged (device surface : Nat) (area : Rect)
  /-- Tells the device last at work on a surface that the scene has changed within an area. -/
  | repaint (surface : Nat) (area : Rect)
  /-- Tells a device that an element has left the tree. -/
  | detachCapture (device surface : Nat) (element : K) (formerParent : Option K)
  /-- Hands the pointer of a device to an element or to nobody. -/
  | capture (device : Nat) (target : Option K)
  | disposeDevice (device : Nat)
  | disposePointer (device : Nat)
  | setRule (device : Nat) (rule : ClickRule)
  | addDevice (draft : DeviceDraft)
  /-- Takes a number from the supply of pointer numbers. -/
  | allocate
  /-- Puts a pointer over an element or over nothing. -/
  | hoverAt (surface : Nat) (pointer : PointerIdentity) (details : Details) (target : Option K)
  | endHover (surface : Nat) (pointer : PointerId) (details : Details)
  | endAllHover (surface : Nat)
  /-- Tells a surface that an element has left the tree. -/
  | detachHover (surface : Nat) (element : K)
  /-- Stores the path a pointer is over without telling anybody. -/
  | setPath (surface : Nat) (pointer : PointerIdentity) (details : Details) (path : List K)
  /-- Asks which of some elements a pointer is over. -/
  | areOver (surface : Nat) (nodes : List K)
  | lineage (surface : Nat) (node : K)
  | bubble (surface : Nat) (event : Event K)
  | deliver (surface : Nat) (event : Event K)
  | record (root : RootId) (device : DeviceId)
  | removeDevice (device : DeviceId)
  | removeRoot (root : RootId)
  /-- Asks which device was last at work in a root. -/
  | active (root : RootId)
  deriving DecidableEq

/-- The answer to a request. -/
inductive Answer (K : Type) where
  | done
  | node (node : Option K)
  | nodes (nodes : List K)
  | flag (value : Bool)
  | flags (values : List Bool)
  | count (value : Nat)
  | transitions (transitions : List (Transition K))
  | pointer (id : PointerId)
  | device (id : Option DeviceId)
  | outcome (outcome : Outcome K)
  /-- Who was last at work, and, if the session has that device, whether its pointer came to be
  over another element. -/
  | repainted (device : Option DeviceId) (changed : Option Bool)
  deriving DecidableEq

namespace Session

variable {σ K : Type}

/-- The surface at a place. -/
def surfaceAt (s : Session σ K) (index : Nat) : Except Fault (Surface σ K) :=
  match s.surfaces[index]? with
  | some surface => .ok surface
  | none => .error (.noSurface index)

/-- The device at a place. -/
def deviceAt (s : Session σ K) (index : Nat) : Except Fault (Device K) :=
  match s.devices[index]? with
  | some device => .ok device
  | none => .error (.noDevice index)

/-- The session with another surface at a place. -/
def setSurface (s : Session σ K) (index : Nat) (surface : Surface σ K) : Session σ K :=
  { s with surfaces := s.surfaces.set index surface }

/-- The session with another device at a place. -/
def setDevice (s : Session σ K) (index : Nat) (device : Device K) : Session σ K :=
  { s with devices := s.devices.set index device }

/-- Adds a device at the end; with the number of its pointer. -/
def addDevice (s : Session σ K) (draft : DeviceDraft) : PointerId × Session σ K :=
  let (id, supply) :=
    match draft.pointer with
    | some id => (id, s.supply)
    | none => s.supply.allocate
  let device := Device.ofPointer draft.id ⟨id, draft.kind, draft.primary⟩ draft.rule
  (id, { s with devices := s.devices ++ [device], supply })

/-- The session of some hosts and devices in which nothing has happened. -/
def start (hosts : List σ) (drafts : List DeviceDraft) : Session σ K :=
  drafts.foldl (fun s draft => (s.addDevice draft).2) { surfaces := hosts.map ({ host := · }) }

/-- The answer to a request about one device, and the session with that device changed. -/
def onDevice (s : Session σ K) (index : Nat) (act : Device K → Answer K × Device K) :
    Except Fault (Answer K × Session σ K) := do
  let (answer, device) := act (← s.deviceAt index)
  return (answer, s.setDevice index device)

/-- The answer to a request about one surface, and the session with that surface changed. -/
def onSurface (s : Session σ K) (index : Nat)
    (act : Surface σ K → Option (Answer K × Surface σ K)) :
    Except Fault (Answer K × Session σ K) := do
  match act (← s.surfaceAt index) with
  | none => throw .endlessWalk
  | some (answer, surface) => return (answer, s.setSurface index surface)

variable [DecidableEq K] [Host σ K]

/-- Brings a report to a device and notes in the registry who was at work. -/
def process (s : Session σ K) (limit device surface : Nat) (report : Report) :
    Except Fault (Answer K × Session σ K) := do
  let handling ← (← s.deviceAt device).process limit (← s.surfaceAt surface) report
  let s := (s.setDevice device handling.device).setSurface surface handling.surface
  return (.outcome handling.outcome,
    { s with registry := s.registry.note report handling.outcome })

/-- Tells the device last at work on a surface of a change of its scene; of several devices of
that number the first is told. -/
def repaint (s : Session σ K) (limit surface : Nat) (area : Rect) :
    Except Fault (Answer K × Session σ K) :=
  s.onSurface surface fun scene =>
    match s.registry.active scene.root with
    | none => some (.repainted none none, scene)
    | some id =>
      match s.devices.find? (·.id = id) with
      | none => some (.repainted id none, scene)
      | some device =>
        (device.sceneChanged limit scene area).map fun (changed, scene) =>
          (.repainted id changed, scene)

/-- Answers a request; `limit` bounds every walk along parent links. -/
def step (limit : Nat) (s : Session σ K) : Step K → Except Fault (Answer K × Session σ K)
  | .process device surface report => s.process limit device surface report
  | .sceneChanged device surface area => do
    let d ← s.deviceAt device
    s.onSurface surface fun scene =>
      (d.sceneChanged limit scene area).map fun (changed, scene) => (.flag changed, scene)
  | .repaint surface area => s.repaint limit surface area
  | .detachCapture device surface element formerParent => do
    let d ← s.deviceAt device
    let scene ← s.surfaceAt surface
    match d.detach (Host.parentOf scene.host) limit element formerParent with
    | none => throw .endlessWalk
    | some (changed, d) => return (.flag changed, s.setDevice device d)
  | .capture device target => s.onDevice device fun d =>
    let (before, d) := d.capture target
    (.node before, d)
  | .disposeDevice device => s.onDevice device fun d => (.done, d.dispose)
  | .disposePointer device => s.onDevice device fun d => (.done, d.disposePointer)
  | .setRule device rule => s.onDevice device fun d => (.done, d.setRule rule)
  | .addDevice draft =>
    let (id, s) := s.addDevice draft
    return (.pointer id, s)
  | .allocate =>
    let (id, supply) := s.supply.allocate
    return (.pointer id, { s with supply })
  | .hoverAt surface pointer details target => s.onSurface surface fun scene =>
    (scene.hoverAt limit pointer details target).map fun (before, scene) => (.node before, scene)
  | .endHover surface pointer details => s.onSurface surface fun scene =>
    some (.done, scene.endHover pointer details)
  | .endAllHover surface => s.onSurface surface fun scene => some (.done, scene.endAllHover)
  | .detachHover surface element => s.onSurface surface fun scene =>
    let (count, scene) := scene.detach element
    some (.count count, scene)
  | .setPath surface pointer details path => s.onSurface surface fun scene =>
    let (hover, transitions) := scene.hover.setPath pointer details path
    some (.transitions transitions, { scene with hover })
  | .areOver surface nodes => s.onSurface surface fun scene =>
    some (.flags (nodes.map scene.hover.isOver), scene)
  | .lineage surface node => s.onSurface surface fun scene =>
    (scene.pathTo limit (some node)).map fun path => (.nodes path, scene)
  | .bubble surface event => s.onSurface surface fun scene =>
    (scene.bubble limit event).map fun (response, stage) =>
      (.flag (response = .handled), { scene with toStage := stage })
  | .deliver surface event => s.onSurface surface fun scene =>
    let (response, stage) := scene.toStage.deliver event.target event
    some (.flag (response = .handled), { scene with toStage := stage })
  | .record root device => return (.done, { s with registry := s.registry.record root device })
  | .removeDevice device => return (.done, { s with registry := s.registry.removeDevice device })
  | .removeRoot root => return (.done, { s with registry := s.registry.removeRoot root })
  | .active root => return (.device (s.registry.active root), s)

omit [DecidableEq K] [Host σ K] in
/-- The session with the records of its deliveries emptied. -/
def forgetDeliveries (s : Session σ K) : Session σ K :=
  { s with surfaces := s.surfaces.map fun surface => { surface with log := [] } }

omit [DecidableEq K] [Host σ K] in
/-- The pointers that hover on a surface and either belong to a device or are among `others`, in
ascending order. -/
def hovering (s : Session σ K) (others : List PointerId) (surface : Surface σ K) :
    List (PointerId × HoverEntry K) :=
  surface.hover.entries.toList.filter fun (id, _) =>
    id ∈ others || s.devices.any fun d => d.pointer.info.id = id

end Session

end PointerRouting
