import PocketCalc.Main
import PocketCalc.Proofs.App.Component
import PocketCalc.Proofs.App.Independence
import PocketCalc.Proofs.App.Mirror
import PocketCalc.Proofs.App.Oversized
import PocketCalc.Proofs.App.Restart
import PocketCalc.Proofs.App.Traffic
import PocketCalc.Proofs.Display.Groups
import PocketCalc.Proofs.Display.ReadBack
import PocketCalc.Proofs.Expression.Printing
import PocketCalc.Proofs.Expression.Scan
import PocketCalc.Proofs.History.Damaged
import PocketCalc.Proofs.History.RoundTrip
import PocketCalc.Proofs.Keypad.Calculation
import PocketCalc.Proofs.Keypad.Chaining
import PocketCalc.Proofs.Keypad.Cleared
import PocketCalc.Proofs.Keypad.Coherent
import PocketCalc.Proofs.Keypad.Echo
import PocketCalc.Proofs.Keypad.Intermediate
import PocketCalc.Proofs.Keypad.Points
import PocketCalc.Proofs.Keypad.Replacing
import PocketCalc.Proofs.Keypad.Retyping
import PocketCalc.Proofs.Keypad.Sign
import PocketCalc.Proofs.Keypad.Spoiled
import PocketCalc.Proofs.Keypad.Truthful
import PocketCalc.Proofs.Storage.Atomic
import PocketCalc.Proofs.Storage.FileMap
import PocketCalc.Proofs.Storage.Working
import PocketCalc.Proofs.Tool.Clock
import PocketCalc.Proofs.Tool.Field
import PocketCalc.Proofs.View.Frozen
