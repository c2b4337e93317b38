/-!
# Subscriptions

A device opts in to direct methods, desired-property patches, module events and cloud-to-device
messages one by one. `Features` records which of them are on, so that they can be replayed on a new
session; module events carry whether they are routed as on an edge module.
-/

namespace HubDevice

/-- An optional subscription. -/
inductive Feature where
  | methods
  | twinPatch
  | events
  | c2dReceive
  deriving DecidableEq, Repr

namespace Feature

/-- All features, in replay order. -/
def all : List Feature := [.methods, .twinPatch, .events, .c2dReceive]

def name : Feature → String
  | .methods => "methods"
  | .twinPatch => "twin_patch"
  | .events => "events"
  | .c2dReceive => "c2d_receive"

/-- The feature of a name. -/
def ofName? (s : String) : Option Feature := all.find? fun f => f.name = s

end Feature

/-- A subscription channel within a session. -/
inductive Channel where
  | methods
  | twinPatch
  | events (edge : Bool)
  | c2dReceive
  deriving DecidableEq, Repr

namespace Channel

def all : List Channel := [methods, twinPatch, events true, events false, c2dReceive]

def name : Channel → String
  | .methods => "methods"
  | .twinPatch => "twin_patch"
  | .events true => "events(edge)"
  | .events false => "events"
  | .c2dReceive => "c2d_receive"

/-- The channel of a name. -/
def ofName? (s : String) : Option Channel := all.find? fun c => c.name = s

end Channel

/-- The channel that serves a feature. -/
def Feature.channel (f : Feature) (edge : Bool) : Channel :=
  match f with
  | .methods => .methods
  | .twinPatch => .twinPatch
  | .events => .events edge
  | .c2dReceive => .c2dReceive

/-- Which features are on. -/
structure Features where
  methods : Bool := false
  twinPatch : Bool := false
  events : Bool := false
  c2dReceive : Bool := false
  /-- The routing recorded with module events. -/
  edge : Bool := false
  deriving DecidableEq, Repr, Inhabited

namespace Features

/-- Whether a feature is on. -/
def has (fs : Features) : Feature → Bool
  | .methods => fs.methods
  | .twinPatch => fs.twinPatch
  | .events => fs.events
  | .c2dReceive => fs.c2dReceive

/-- Turns a feature on or off. -/
def set (fs : Features) (f : Feature) (on : Bool) : Features :=
  match f with
  | .methods => { fs with methods := on }
  | .twinPatch => { fs with twinPatch := on }
  | .events => { fs with events := on }
  | .c2dReceive => { fs with c2dReceive := on }

/-- The features that are on, in replay order. -/
def enabled (fs : Features) : List Feature := Feature.all.filter fs.has

/-- The channels that a session has when the features of `fs` are on it, in replay order. -/
def channels (fs : Features) : List Channel := fs.enabled.map (·.channel fs.edge)

def isEmpty (fs : Features) : Bool := fs.enabled.isEmpty

/-- The names of the features that are on. -/
def display (fs : Features) : String :=
  match fs.enabled with
  | [] => "none"
  | on => ", ".intercalate (on.map Feature.name)

@[simp] theorem has_set (fs : Features) (f g : Feature) (on : Bool) :
    (fs.set f on).has g = if g = f then on else fs.has g := by
  cases f <;> cases g <;> simp [set, has]

@[simp] theorem edge_set (fs : Features) (f : Feature) (on : Bool) :
    (fs.set f on).edge = fs.edge := by
  cases f <;> rfl

theorem mem_enabled {fs : Features} {f : Feature} : f ∈ fs.enabled ↔ fs.has f = true := by
  cases f <;> simp [enabled, Feature.all, List.mem_filter]

end Features

end HubDevice
