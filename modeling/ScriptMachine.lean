import ScriptMachine.Machine.Execution
import ScriptMachine.Machine.Stage
import ScriptMachine.Promise.Network
import ScriptMachine.Proofs.Arrays.Creation
import ScriptMachine.Proofs.Independence.Commutation
import ScriptMachine.Proofs.Independence.Following
import ScriptMachine.Proofs.Independence.Instructions
import ScriptMachine.Proofs.Independence.Progress
import ScriptMachine.Proofs.Inheritance.ParentCalls
import ScriptMachine.Proofs.Inheritance.Upcasts
import ScriptMachine.Proofs.Limits.CallDepth
import ScriptMachine.Proofs.Limits.Circles
import ScriptMachine.Proofs.Limits.ForwardCode
import ScriptMachine.Proofs.Limits.Quiet
import ScriptMachine.Proofs.Limits.Quota
import ScriptMachine.Proofs.Limits.Termination
import ScriptMachine.Proofs.Limits.UnlimitedMachine
import ScriptMachine.Proofs.Limits.Widening
import ScriptMachine.Proofs.Locals.DeclaredTypes
import ScriptMachine.Proofs.Locals.FirstValues
import ScriptMachine.Proofs.Locals.Privacy
import ScriptMachine.Proofs.Names.Interned
import ScriptMachine.Proofs.Names.Literals
import ScriptMachine.Proofs.Names.Sharing
import ScriptMachine.Proofs.Promise.Forwarding
import ScriptMachine.Proofs.Promise.OneShot
import ScriptMachine.Proofs.Properties.RoundTrip
import ScriptMachine.Proofs.Properties.Stores
import ScriptMachine.Proofs.Routing.Faults
import ScriptMachine.Proofs.Routing.RememberedTargets
import ScriptMachine.Proofs.Suspension.TransparentReads
import ScriptMachine.Proofs.Suspension.Outcomes
import ScriptMachine.Proofs.Suspension.Transparency
import ScriptMachine.Proofs.Script.Documents
import ScriptMachine.Proofs.Values.Comparisons
import ScriptMachine.Proofs.Values.Division
import ScriptMachine.Proofs.Values.LeadingNumbers
import ScriptMachine.Proofs.Values.Order
import ScriptMachine.Script.Document
import ScriptMachine.Proofs.World.Heaps
import ScriptMachine.Proofs.World.Arrays
import ScriptMachine.Proofs.World.Numbers
import ScriptMachine.Proofs.Arrays.Searches
