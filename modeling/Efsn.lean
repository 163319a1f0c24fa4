import Efsn.Bytes
import Efsn.Hex
import Efsn.FixedBytes
import Efsn.Checksum
import Efsn.Codec
import Efsn.Numeral
import Efsn.Decoding
import Efsn.Ticket
import Efsn.TicketStore
import Efsn.Records
import Efsn.Validation
import Efsn.SwapLedger
