import WritePlan.Accumulator
import WritePlan.Distinct
import WritePlan.Emission
import WritePlan.Entity.Json
import WritePlan.IndexedMapping
import WritePlan.Intake
import WritePlan.Json.Writer
import WritePlan.Locating
import WritePlan.Lookup
import WritePlan.Lots
import WritePlan.Schema
import WritePlan.Proofs.GroupTable
import WritePlan.Proofs.Schedule
import WritePlan.Proofs.Conservation
import WritePlan.Proofs.GroupActions
import WritePlan.Proofs.Precedence
import WritePlan.Proofs.Batches
import WritePlan.Proofs.Regrouping
import WritePlan.Proofs.Emission
import WritePlan.Proofs.KeyOrder
import WritePlan.Proofs.Chunks
import WritePlan.Proofs.Policies
import WritePlan.Proofs.Growth
import WritePlan.Proofs.Coalescing
import WritePlan.Proofs.Lookups
import WritePlan.Proofs.Sessions
import WritePlan.Proofs.Outcomes
import WritePlan.Proofs.Registration
import WritePlan.Proofs.Walks
import WritePlan.Proofs.Listing
import WritePlan.Proofs.Addresses
import WritePlan.Proofs.Catalogue
import WritePlan.Proofs.LeafProperties
import WritePlan.Proofs.PropertyIndex
import WritePlan.Proofs.Expansion
import WritePlan.Proofs.AllPaths
import WritePlan.Proofs.Lineages
import WritePlan.Proofs.Locating
import WritePlan.Proofs.Offers
import WritePlan.Proofs.Ancestry
import WritePlan.Proofs.JsonText
import WritePlan.Proofs.Calendar
import WritePlan.Proofs.TimestampText
import WritePlan.Proofs.ValueText
import WritePlan.Proofs.EntityText
import WritePlan.Proofs.Rounding
import WritePlan.Proofs.QuickReading
import WritePlan.Proofs.ShortestDecimal
import WritePlan.Proofs.Intake
import WritePlan.Proofs.ValueKeys
import WritePlan.Proofs.LotTable
import WritePlan.Proofs.Dispatch
