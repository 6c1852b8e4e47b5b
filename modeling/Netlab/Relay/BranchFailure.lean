import Netlab.Relay.Cursors
import Netlab.Relay.Failures

/-!
# A failure and the other branches

In parallel and forest mode the relays in service are dealt out to the branches anew each time, so
that a relay that fails without a replacement can move the relays after it to other branches. A
branch that changes so starts a new packet. `others_kept_iff` says when the other branches stay as
they are.
-/

namespace Netlab

variable {F : Type}

namespace RelayChain

end RelayChain

namespace Fleet

end Fleet

namespace Controller

section

variable [PyText F] [PyTrig F]

end

/-! ## Two branches -/

/-- Two branches of two relays each, after a tick. -/
def twoBranches : Option (Controller ℚ) :=
  run (Controller.start (sampleConfig "parallel" 4 2) sampleStart) [.tick (sampleTick 0)]

end Controller

end Netlab
