import Xkb.CommandLine
import Xkb.Main
import Xkb.Proofs.Assembly
import Xkb.Proofs.Computation
import Xkb.Proofs.Library
import Xkb.Proofs.Section.IncludeStack
import Xkb.Proofs.Source.Progress
import Xkb.Proofs.Source.Scan
import Xkb.Proofs.Section.Reading
import Xkb.Proofs.Definition
import Xkb.Proofs.Section.KeyTypes
import Xkb.Proofs.Section.KeySymbols
import Xkb.Proofs.Bits
import Xkb.Proofs.MergePolicy
import Xkb.Proofs.Compiler
import Xkb.Proofs.Alike
import Xkb.Proofs.Section.Agreement
import Xkb.Proofs.Tables
import Xkb.Proofs.Section.KeysAlike
import Xkb.Proofs.Section.PlacementAlike
import Xkb.Proofs.Section.CompatAlike
import Xkb.Proofs.AssemblyAlike
import Xkb.Proofs.WarningLevel
import Xkb.Proofs.Section.Sharing
import Xkb.Proofs.Session
import Xkb.Proofs.Section.TypesAlike
import Xkb.Proofs.Section.Cycles
import Xkb.Proofs.Section.Settled
import Xkb.Proofs.Section.KeysSettled
import Xkb.Proofs.Section.CompatSettled
import Xkb.Proofs.Source.Inclusion
import Xkb.Proofs.Section.SoleInclude
import Xkb.Proofs.Aliases
import Xkb.Proofs.Transparency
import Xkb.Proofs.Section.IndicatorBinding
import Xkb.Proofs.Section.KeycodeRange
import Xkb.Proofs.Section.KeyRecords
import Xkb.Proofs.Section.KeyLook
import Xkb.Proofs.Section.ApartKeys
import Xkb.Proofs.AugmentOrder
import Xkb.Proofs.Accounts
import Xkb.Proofs.Section.KeycodeAnswers
import Xkb.Proofs.Section.ReadingAnswers
import Xkb.Proofs.SilentFailure
import Xkb.Proofs.InterpretationOrder
import Xkb.Proofs.InterpretationMerging
import Xkb.Proofs.IndicatorMapMerging
import Xkb.Proofs.SelfReference
import Xkb.Proofs.Section.PlacedKeys
import Xkb.Proofs.Section.RepeatedKeys
import Xkb.Proofs.Section.KeyNames
import Xkb.Proofs.Section.KeySteps
import Xkb.Proofs.AlternateKeys
import Xkb.Proofs.Section.KeyAliases
import Xkb.Proofs.Section.AliasedStatements
import Xkb.Proofs.AliasedKeys
import Xkb.Proofs.Source.Tokens
import Xkb.Proofs.Source.Spelling
import Xkb.Proofs.Source.Rendering
import Xkb.Proofs.MaskText
import Xkb.Proofs.Action.Sound
import Xkb.Proofs.Source.Statements
import Xkb.Proofs.Section.WrittenKeycodes
import Xkb.Proofs.KeycodesText
import Xkb.Proofs.ModifierCalls
import Xkb.Proofs.ModifierRuns
import Xkb.Proofs.GroupMaskMerging
import Xkb.Proofs.IndicatorNames
import Xkb.Proofs.AliasChains
import Xkb.Proofs.Section.MergeWinners
import Xkb.Proofs.Section.ReachedKeys
import Xkb.Proofs.Section.PreparedKeys
import Xkb.Proofs.Section.NamedCodes
import Xkb.Proofs.KeyDefinitions
import Xkb.Proofs.KeycodeAugmenting
import Xkb.Proofs.Section.TypeMasks
import Xkb.Proofs.KeysymNames
import Xkb.Proofs.TypeDefaults
import Xkb.Proofs.KeyBehaviors
import Xkb.Proofs.SymbolSearch
import Xkb.Proofs.GroupLists
import Xkb.Proofs.Source.Forward
