import BindBytecode.Bytes
import BindBytecode.Instruction
import BindBytecode.EncodeV1.Bitfield
import BindBytecode.EncodeV1.Encode
import BindBytecode.EncodeV1.Output
import BindBytecode.EncodeV1.Display
import BindBytecode.MatchBind.Symbol
import BindBytecode.MatchBind.Decode
import BindBytecode.MatchBind.Matcher
import BindBytecode.MatchBind.Program
import BindBytecode.MatchBind.Acceptance
import BindBytecode.MatchBind.Compose
