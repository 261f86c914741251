import AutoDJ.Album
import AutoDJ.Cache.Build
import AutoDJ.Cache.Flags
import AutoDJ.Cache.Kind
import AutoDJ.Cache.Snapshot
import AutoDJ.Cli.Command
import AutoDJ.Cli.Level
import AutoDJ.Cli.Parse
import AutoDJ.Config.Basic
import AutoDJ.Config.File
import AutoDJ.Config.Format
import AutoDJ.Error
import AutoDJ.Event
import AutoDJ.Event.Line
import AutoDJ.Files.Disk
import AutoDJ.Files.Path
import AutoDJ.Files.UserDirectories
import AutoDJ.History.Basic
import AutoDJ.History.Entry
import AutoDJ.Json.Codec
import AutoDJ.Json.Numeral
import AutoDJ.Json.Printer
import AutoDJ.Json.Quoted
import AutoDJ.Json.Reader
import AutoDJ.Json.Value
import AutoDJ.Jukebox.Basic
import AutoDJ.Jukebox.Candidate
import AutoDJ.Jukebox.Exclusions
import AutoDJ.Jukebox.Fill
import AutoDJ.Jukebox.Reservoir
import AutoDJ.Jukebox.Sampling
import AutoDJ.Jukebox.Settings
import AutoDJ.Mailbox
import AutoDJ.Main
import AutoDJ.Mpc.Client
import AutoDJ.Mpc.Command
import AutoDJ.Mpc.Output
import AutoDJ.MpdConf
import AutoDJ.PidFile
import AutoDJ.Player.Basic
import AutoDJ.Player.Listing
import AutoDJ.Player.Source
import AutoDJ.Program
import AutoDJ.Proofs.Cache.Albums
import AutoDJ.Proofs.Cache.Build
import AutoDJ.Proofs.Cache.Complete
import AutoDJ.Proofs.Cache.Flags
import AutoDJ.Proofs.Cache.Survey
import AutoDJ.Proofs.Config.RoundTrip
import AutoDJ.Proofs.Event.Framing
import AutoDJ.Proofs.Files.Disk
import AutoDJ.Proofs.History.Lines
import AutoDJ.Proofs.History.Retention
import AutoDJ.Proofs.History.Tail
import AutoDJ.Proofs.Json.Codec
import AutoDJ.Proofs.Json.Numeral
import AutoDJ.Proofs.Json.Quoted
import AutoDJ.Proofs.Json.RoundTrip
import AutoDJ.Proofs.Json.SingleLine
import AutoDJ.Proofs.Jukebox.Accounting
import AutoDJ.Proofs.Jukebox.AlbumSelection
import AutoDJ.Proofs.Jukebox.Amount
import AutoDJ.Proofs.Jukebox.Apart
import AutoDJ.Proofs.Jukebox.Buffer
import AutoDJ.Proofs.Jukebox.Counting
import AutoDJ.Proofs.Jukebox.Distinct
import AutoDJ.Proofs.Jukebox.Effort
import AutoDJ.Proofs.Jukebox.Enforcement
import AutoDJ.Proofs.Jukebox.Fill
import AutoDJ.Proofs.Jukebox.Frame
import AutoDJ.Proofs.Jukebox.HandOver
import AutoDJ.Proofs.Jukebox.Harvest
import AutoDJ.Proofs.Jukebox.Idle
import AutoDJ.Proofs.Jukebox.Limit
import AutoDJ.Proofs.Jukebox.Notebook
import AutoDJ.Proofs.Jukebox.Offers
import AutoDJ.Proofs.Jukebox.Receipts
import AutoDJ.Proofs.Jukebox.Relaxing
import AutoDJ.Proofs.Jukebox.Replenish
import AutoDJ.Proofs.Jukebox.RequestEffects
import AutoDJ.Proofs.Jukebox.Requests
import AutoDJ.Proofs.Jukebox.Sampling
import AutoDJ.Proofs.Jukebox.Selection
import AutoDJ.Proofs.Jukebox.Shortage
import AutoDJ.Proofs.Jukebox.Slots
import AutoDJ.Proofs.Jukebox.StandIn
import AutoDJ.Proofs.Jukebox.TagValues
import AutoDJ.Proofs.Jukebox.Turns
import AutoDJ.Proofs.Jukebox.Uniform
import AutoDJ.Proofs.Jukebox.Vetting
import AutoDJ.Proofs.Jukebox.Visits
import AutoDJ.Proofs.Mailbox.Delivery
import AutoDJ.Proofs.Mailbox.Journal
import AutoDJ.Proofs.Mpc.AddAlbum
import AutoDJ.Proofs.Mpc.Paging
import AutoDJ.Proofs.Mpc.Scan
import AutoDJ.Proofs.Mpc.SongLines
import AutoDJ.Proofs.Mpc.Status
import AutoDJ.Proofs.MpdConf
import AutoDJ.Proofs.Play.Ends
import AutoDJ.Proofs.Play.Mirrors
import AutoDJ.Proofs.Player.Listing
import AutoDJ.Proofs.Player.Meter
import AutoDJ.Proofs.Player.PageSize
import AutoDJ.Proofs.Player.Receipts
import AutoDJ.Proofs.Player.StandIn
import AutoDJ.Proofs.Service.Claims
import AutoDJ.Proofs.Service.Frame
import AutoDJ.Proofs.Service.Library
import AutoDJ.Proofs.Service.LibraryChanges
import AutoDJ.Proofs.Service.Notes
import AutoDJ.Proofs.Service.Operation
import AutoDJ.Proofs.Service.Rebuild
import AutoDJ.Proofs.Service.Replies
import AutoDJ.Proofs.Service.Scene
import AutoDJ.Proofs.Service.SingleFlight
import AutoDJ.Proofs.Service.Snapshots
import AutoDJ.Proofs.Service.SongChanges
import AutoDJ.Proofs.Service.Steady
import AutoDJ.Proofs.Sticker.Table
import AutoDJ.Proofs.Text.Lines
import AutoDJ.Proofs.Text.Numeral
import AutoDJ.Proofs.Text.Readings
import AutoDJ.Proofs.Text.Words
import AutoDJ.Random.ChaCha
import AutoDJ.Random.WordStream
import AutoDJ.Rehearsal.Jukebox
import AutoDJ.Rehearsal.Mailbox
import AutoDJ.Rehearsal.Mpc
import AutoDJ.Rehearsal.Pages
import AutoDJ.Rehearsal.Player
import AutoDJ.Rehearsal.Program
import AutoDJ.Rehearsal.Service
import AutoDJ.Rehearsal.Stage
import AutoDJ.Rehearsal.Stickers
import AutoDJ.Service.Basic
import AutoDJ.Service.Builder
import AutoDJ.Service.Exchange
import AutoDJ.Service.Run
import AutoDJ.Song
import AutoDJ.Sticker.Address
import AutoDJ.Sticker.Basic
import AutoDJ.Sticker.Index
import AutoDJ.Sticker.Table
import AutoDJ.Text.Blank
import AutoDJ.Text.Decimal
import AutoDJ.Text.Lines
import AutoDJ.Text.Numeral
import AutoDJ.Text.Utf8
