import SatComm.Asnbuf.Capacity
import SatComm.Asnbuf.CerLength
import SatComm.Asnbuf.Extent
import SatComm.Asnbuf.GetBits
import SatComm.Asnbuf.LengthRoundTrip
import SatComm.Asnbuf.MergeExact
import SatComm.Asnbuf.PushOrder
import SatComm.Audio.Owners
import SatComm.Audio.Service
import SatComm.Audio.Steps
import SatComm.Audio.VoiceCalls
import SatComm.Card.Pins
import SatComm.Card.ReadBack
import SatComm.Card.Stages
import SatComm.Card.Texts
import SatComm.Codes.Base128
import SatComm.Codes.Prefix
import SatComm.Commands.Results
import SatComm.Config.Soundness
import SatComm.Cv2x.Agreement
import SatComm.Cv2x.Payload
import SatComm.Cv2x.Rollback
import SatComm.Data.Connection
import SatComm.Data.Firewall
import SatComm.Data.Interfaces
import SatComm.Data.L2tp
import SatComm.Data.Ownership
import SatComm.Data.Profiles
import SatComm.Data.Throttle
import SatComm.ECall.Components
import SatComm.ECall.EuroNcap
import SatComm.ECall.Lossless
import SatComm.Events.Listeners
import SatComm.Events.Subscriptions
import SatComm.Events.Tokens
import SatComm.FileBuffer.HandOver
import SatComm.FileBuffer.LastRow
import SatComm.FileBuffer.Threads
import SatComm.GeoNet.Expiry
import SatComm.GeoNet.Freshness
import SatComm.GeoNet.LocationService
import SatComm.GeoNet.PayloadBounds
import SatComm.GeoNet.QueueRuns
import SatComm.GeoNet.QueuedLifeTimes
import SatComm.GeoNet.TableRuns
import SatComm.GeoNet.Transmission
import SatComm.J2735.Bounds
import SatComm.J2735.CoreBits
import SatComm.J2735.Encode
import SatComm.J2735.Mass
import SatComm.J2735.Resync
import SatComm.J2735.RoundTrip
import SatComm.Json.Texts
import SatComm.Ldm.Ages
import SatComm.Ldm.Ownership
import SatComm.Ldm.PacketLoss
import SatComm.Listener.Edges
import SatComm.Listener.Registered
import SatComm.Player.Lossless
import SatComm.Player.Playlist
import SatComm.Player.Repetitions
import SatComm.Player.Separation
import SatComm.Player.Sticking
import SatComm.Player.Streams
import SatComm.Player.Truthful
import SatComm.Power.Acks
import SatComm.Power.Agreement
import SatComm.Power.Clients
import SatComm.Power.Resume
import SatComm.PowerRef.Answers
import SatComm.PowerRef.DataFilters
import SatComm.PowerRef.EventManager
import SatComm.PowerRef.LatestWins
import SatComm.PowerRef.Steps
import SatComm.PowerRef.WakeLock
import SatComm.RemoteSim.Exchange
import SatComm.RemoteSim.Supervision
import SatComm.Runs.Maps
import SatComm.Service.Gates
import SatComm.Service.StopAndWait
import SatComm.Service.Uplink
import SatComm.Tasks.Dispatcher
import SatComm.Tel.Active
import SatComm.Tel.EcallTimers
import SatComm.Tel.EcallUpdates
import SatComm.Tel.Frames
import SatComm.Tel.Handshake
import SatComm.Tel.Redialing
import SatComm.Tel.Removal
import SatComm.Tel.SmsRequests
import SatComm.Wsmp.OctetStrings
import SatComm.Wsmp.PsidCode
import SatComm.Wsmp.RoundTrip
