import DnsServer.Query
import DnsServer.Scoreboard.Requests

/-! Which datagrams the scoreboard takes for answers. -/
namespace DnsServer
open Memory
variable {Time : Type}

/-- The result that a header stands for. -/
def Header.validTrans (header : Header) : UInt8 := if header.rcode = 0x3 then 0 else 1

section
variable [Zero Time]

end

end DnsServer
