import TimeSeries.Block.Image
import TimeSeries.Proofs.Bits.Reading
import TimeSeries.Service.Routes
import TimeSeries.Service.Settings
import TimeSeries.Table
import TimeSeries.Proofs.Block.Fields
import TimeSeries.Proofs.Block.RoundTrip
import TimeSeries.Proofs.Log.Contents
import TimeSeries.Proofs.Cursor.Combination
import TimeSeries.Proofs.Row.Order
import TimeSeries.Proofs.Cursor.Plain
import TimeSeries.Proofs.Cache.History
import TimeSeries.Proofs.Cache.RawAnswers
import TimeSeries.Proofs.Cache.LaterAnswers
import TimeSeries.Proofs.Cursor.Expansion
import TimeSeries.Proofs.Table.Contents
import TimeSeries.Proofs.Table.Packing
import TimeSeries.Proofs.Table.History
import TimeSeries.Proofs.Table.Compaction
import TimeSeries.Proofs.Table.Puts
import TimeSeries.Proofs.Table.AgeOff
import TimeSeries.Proofs.Log.History
import TimeSeries.Proofs.Cache.Eviction
import TimeSeries.Proofs.Cache.Upkeep
import TimeSeries.Proofs.Buckets.Grid
import TimeSeries.Proofs.Buckets.Merges
import TimeSeries.Proofs.Cache.AgedPoints
import TimeSeries.Proofs.Cache.Interleaving
import TimeSeries.Proofs.Entries.Canonical
import TimeSeries.Proofs.Cursor.Separation
import TimeSeries.Proofs.Cursor.Repacking
import TimeSeries.Proofs.Cursor.Classes
import TimeSeries.Proofs.Buckets.Partition
import TimeSeries.Proofs.Buckets.Packed
import TimeSeries.Proofs.Buckets.Pieces
import TimeSeries.Proofs.Table.Downsampled
import TimeSeries.Proofs.Cursor.Exposed
import TimeSeries.Proofs.Cursor.LostRuns
import TimeSeries.Proofs.Cursor.LostStream
import TimeSeries.Proofs.Cursor.Stacks
import TimeSeries.Proofs.Cursor.Excerpts
import TimeSeries.Proofs.Cache.Boundaries
import TimeSeries.Proofs.Cache.Uncached
import TimeSeries.Proofs.Cache.Census
import TimeSeries.Proofs.Table.Isolation
import TimeSeries.Proofs.Text.Lines
import TimeSeries.Proofs.Service.Ingest
import TimeSeries.Proofs.Cursor.Surfacing
import TimeSeries.Proofs.Table.Wholeness
import TimeSeries.Proofs.Rates.Answers
import TimeSeries.Proofs.Row.Ranges
import TimeSeries.Proofs.Cache.LoneMembers
import TimeSeries.Proofs.Buckets.Straddling
import TimeSeries.Proofs.Cache.Subqueries
import TimeSeries.Proofs.Readers.Yields
import TimeSeries.Proofs.Entries.Runs
import TimeSeries.Proofs.Block.Truncation
import TimeSeries.Proofs.Entries.Columns
import TimeSeries.Proofs.Entries.Identity
import TimeSeries.Proofs.Block.Accesses
import TimeSeries.Proofs.Block.Bursts
import TimeSeries.Proofs.Block.Streams
import TimeSeries.Proofs.Aggregator.Resets
import TimeSeries.Proofs.Cursor.Selection
import TimeSeries.Proofs.Cursor.Peeking
import TimeSeries.Proofs.Numbers.Normal
import TimeSeries.Proofs.Numbers.Rounding
import TimeSeries.Proofs.Percentiles.NearestRank
import TimeSeries.Proofs.Text.PutGrammar
import TimeSeries.Proofs.Buckets.Spellings
import TimeSeries.Proofs.Retention.Options
import TimeSeries.Proofs.Patterns.Anchoring
