import DarkbioWire.Acceptance
import DarkbioWire.Backlog
import DarkbioWire.Compromise
import DarkbioWire.Delivery
import DarkbioWire.ExactlyOnce
import DarkbioWire.Fragments
import DarkbioWire.Framing.Retry
import DarkbioWire.Framing.Safety
import DarkbioWire.Framing.Stream
import DarkbioWire.Framing.Words
import DarkbioWire.Framing.Work
import DarkbioWire.Fuzz
import DarkbioWire.HalfOpen
import DarkbioWire.Interrupted
import DarkbioWire.MessageLimit
import DarkbioWire.Nonces
import DarkbioWire.Reference.Codec
import DarkbioWire.Resets
import DarkbioWire.Rounds
import DarkbioWire.Secrecy
import DarkbioWire.Sender
import DarkbioWire.Serving
import DarkbioWire.Shut
import DarkbioWire.Stale
import DarkbioWire.Streams
import DarkbioWire.Surfacing
import DarkbioWire.Tally
