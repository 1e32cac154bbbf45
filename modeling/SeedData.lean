import SeedData.Calendar
import SeedData.Json.Reader
import SeedData.Schema.Classification
import SeedData.Schema.Format
import SeedData.Notice
import SeedData.Dbml.Parser
import SeedData.Order.Format
import SeedData.Column.Key
import SeedData.Column.Synthesis
import SeedData.Data.Csv
import SeedData.Data.Pools
import SeedData.Run.Report
import SeedData.Run.FromText
import SeedData.Run.Guarded
import SeedData.Disk.Tree
import SeedData.Command.Project
import SeedData.Main
import SeedData.Proofs.Components
import SeedData.Proofs.CycleBreaking
import SeedData.Proofs.Arrangement
import SeedData.Proofs.TablesInOrder
import SeedData.Proofs.Chance
import SeedData.Proofs.RowFacts
import SeedData.Proofs.PlanFacts
import SeedData.Proofs.PoolFacts
import SeedData.Proofs.ReferentialIntegrity
import SeedData.Proofs.RowCoherence
import SeedData.Proofs.DistinctKeys
import SeedData.Proofs.DraftHistory
import SeedData.Proofs.UniqueColumns
import SeedData.Proofs.InlineReferences
import SeedData.Proofs.Quotations
import SeedData.Proofs.Simulation
import SeedData.Proofs.Silence
import SeedData.Proofs.SkippedBlocks
import SeedData.Proofs.Layout
import SeedData.Proofs.LineByLine
import SeedData.Proofs.Identifiers
import SeedData.Proofs.Spelling
import SeedData.Proofs.WrittenSchemas
import SeedData.Proofs.Preferences
import SeedData.Proofs.SmallestOrder
import SeedData.Proofs.AttributeFallbacks
import SeedData.Proofs.DeclarationOrder
import SeedData.Proofs.DisregardedReferences
import SeedData.Proofs.WellFormedSchemas
import SeedData.Proofs.SelfReferences
import SeedData.Proofs.RunRecords
import SeedData.Proofs.TypedCells
import SeedData.Proofs.GuardedRuns
import SeedData.Proofs.SupportedDates
import SeedData.Proofs.Outcomes
import SeedData.Proofs.Concatenation
import SeedData.Proofs.TableFiles
import SeedData.Proofs.LowerCase
import SeedData.Proofs.ArrayColumns
import SeedData.Proofs.SettingTokens
import SeedData.Proofs.SettingLists
import SeedData.Proofs.BraceBelow
import SeedData.Proofs.EndpointText
import SeedData.Proofs.SameSpelling
import SeedData.Proofs.RelationDirection
import SeedData.Proofs.TreeFacts
import SeedData.Proofs.ProjectFiles
import SeedData.Proofs.Projects
import SeedData.Proofs.TextKeys
import SeedData.Proofs.ExhaustedKeys
import SeedData.Proofs.EnumNames
import SeedData.Proofs.ColumnLists
import SeedData.Proofs.ReferenceKinds
import SeedData.Proofs.PoolHistory
import SeedData.Proofs.IssueList
import SeedData.Proofs.AddedKeys
import SeedData.Proofs.JsonForms
import SeedData.Proofs.RepeatedSettings
import SeedData.Proofs.StableIdentifiers
