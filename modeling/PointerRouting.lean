import PointerRouting.Geometry
import PointerRouting.Flags
import PointerRouting.Button
import PointerRouting.Click
import PointerRouting.Identity
import PointerRouting.Event
import PointerRouting.Tree
import PointerRouting.Pointer
import PointerRouting.Host
import PointerRouting.Hover
import PointerRouting.Surface
import PointerRouting.Action
import PointerRouting.Fault
import PointerRouting.Device
import PointerRouting.Registry
import PointerRouting.Session
import PointerRouting.Scene
import PointerRouting.Proofs.Tree.Ancestry
import PointerRouting.Proofs.Capture.Removal
import PointerRouting.Proofs.Capture.Hold
import PointerRouting.Proofs.Hover.Entry
import PointerRouting.Proofs.Hover.Transition
import PointerRouting.Proofs.Stage.Delivery
import PointerRouting.Proofs.Stage.Manner
import PointerRouting.Proofs.Stage.Climb
import PointerRouting.Proofs.Device.Phases
import PointerRouting.Proofs.Surface.Change
import PointerRouting.Proofs.Surface.Run
import PointerRouting.Proofs.Surface.Crossing
import PointerRouting.Proofs.Surface.Relink
import PointerRouting.Proofs.Surface.Ending
import PointerRouting.Proofs.Surface.Touch
import PointerRouting.Proofs.Surface.Seen
import PointerRouting.Proofs.Session.Run
import PointerRouting.Proofs.Session.Interleaving
import PointerRouting.Proofs.Surface.Twin
import PointerRouting.Proofs.Surface.Walk
import PointerRouting.Proofs.Session.Handling
import PointerRouting.Proofs.Device.Disposal
import PointerRouting.Proofs.Capture.Release
import PointerRouting.Proofs.Click.Count
import PointerRouting.Proofs.Surface.Difference
import PointerRouting.Proofs.Device.Position
import PointerRouting.Proofs.Session.Disposal
import PointerRouting.Proofs.Device.Account
import PointerRouting.Proofs.Session.SceneChange
import PointerRouting.Proofs.Device.Hovering
import PointerRouting.Proofs.Registry.History
import PointerRouting.Proofs.Device.Presses
import PointerRouting.Proofs.Hover.Script
import PointerRouting.Proofs.Surface.Filing
import PointerRouting.Proofs.Tree.Walks
import PointerRouting.Proofs.Device.Dates
