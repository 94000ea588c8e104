import ScriptShell.Main
import ScriptShell.Proofs.AliasExpansion
import ScriptShell.Proofs.CallForms
import ScriptShell.Proofs.CallPipes
import ScriptShell.Proofs.Cancellation
import ScriptShell.Proofs.CapabilityFields
import ScriptShell.Proofs.CapabilityReferences
import ScriptShell.Proofs.ConfigTexts
import ScriptShell.Proofs.Contexts
import ScriptShell.Proofs.CopiedVariables
import ScriptShell.Proofs.DeclaredTypes
import ScriptShell.Proofs.DelegatedTables
import ScriptShell.Proofs.ElidedLines
import ScriptShell.Proofs.GuestTrees
import ScriptShell.Proofs.HostFunctions
import ScriptShell.Proofs.IdentityHooks
import ScriptShell.Proofs.InputReading
import ScriptShell.Proofs.InsertedMaps
import ScriptShell.Proofs.KeyBindings
import ScriptShell.Proofs.LinesIterators
import ScriptShell.Proofs.MapContents
import ScriptShell.Proofs.NamespaceNames
import ScriptShell.Proofs.Namespaces
import ScriptShell.Proofs.OfferedNames
import ScriptShell.Proofs.PipeWrites
import ScriptShell.Proofs.SessionAttempts
import ScriptShell.Proofs.ShellCollections
import ScriptShell.Proofs.ShellHistory
import ScriptShell.Proofs.SignalHistories
import ScriptShell.Proofs.StartupRuns
import ScriptShell.Proofs.StreamIsolation
import ScriptShell.Proofs.TableChains
import ScriptShell.Proofs.WordSplitting
