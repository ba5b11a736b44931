import UnicityNostr.Binding
import UnicityNostr.Binding.Authors
import UnicityNostr.Binding.Creation
import UnicityNostr.Binding.Discovery
import UnicityNostr.Binding.Lookup
import UnicityNostr.Binding.Registration
import UnicityNostr.Binding.Replicas
import UnicityNostr.Binding.Resolution
import UnicityNostr.Client
import UnicityNostr.Client.Acknowledgement
import UnicityNostr.Client.Archive
import UnicityNostr.Client.Authentication
import UnicityNostr.Client.Challenged
import UnicityNostr.Client.Custody
import UnicityNostr.Client.Deadline
import UnicityNostr.Client.Exits
import UnicityNostr.Client.Feed
import UnicityNostr.Client.Grammar
import UnicityNostr.Client.Invariant
import UnicityNostr.Client.Isolation
import UnicityNostr.Client.Listener
import UnicityNostr.Client.Multi
import UnicityNostr.Client.Multi.Connect
import UnicityNostr.Client.Multi.Run
import UnicityNostr.Client.Multi.Subscription
import UnicityNostr.Client.Multi.Survival
import UnicityNostr.Client.Multi.Union
import UnicityNostr.Client.Native
import UnicityNostr.Client.Persistent
import UnicityNostr.Client.Pings
import UnicityNostr.Client.Round
import UnicityNostr.Client.Run
import UnicityNostr.Client.Session
import UnicityNostr.Client.Shared
import UnicityNostr.Client.Storage
import UnicityNostr.Client.Termination
import UnicityNostr.Client.Transcript
import UnicityNostr.Client.Wire
import UnicityNostr.Crates
import UnicityNostr.Crypto.Bech32
import UnicityNostr.Crypto.Bech32.Bip173
import UnicityNostr.Crypto.Bech32.Checked
import UnicityNostr.Crypto.Bech32.Checksum
import UnicityNostr.Crypto.Bech32.Mistyped
import UnicityNostr.Crypto.Bech32.Regroup
import UnicityNostr.Crypto.Bech32.RoundTrip
import UnicityNostr.Crypto.Builds
import UnicityNostr.Crypto.KeyAgreement
import UnicityNostr.Crypto.Nip04
import UnicityNostr.Crypto.Nip44
import UnicityNostr.Crypto.Nip44.Canonical
import UnicityNostr.Crypto.Nip44.Capacity
import UnicityNostr.Crypto.Nip44.Checked
import UnicityNostr.Crypto.Schnorr
import UnicityNostr.Crypto.Secp
import UnicityNostr.Crypto.Transparency
import UnicityNostr.Decoders
import UnicityNostr.Event
import UnicityNostr.Event.Address
import UnicityNostr.Event.Integrity
import UnicityNostr.Filter
import UnicityNostr.Filter.Wire
import UnicityNostr.Keys
import UnicityNostr.Lib.Base64
import UnicityNostr.Lib.Bch
import UnicityNostr.Lib.Checked
import UnicityNostr.Lib.Distance
import UnicityNostr.Lib.Eff
import UnicityNostr.Lib.Except
import UnicityNostr.Lib.Firsts
import UnicityNostr.Lib.Gf1024
import UnicityNostr.Lib.Hex
import UnicityNostr.Lib.Json
import UnicityNostr.Lib.JsonReader
import UnicityNostr.Lib.Latest
import UnicityNostr.Lib.Radix
import UnicityNostr.Lib.Register
import UnicityNostr.Lib.Sha256
import UnicityNostr.Lib.Unicode
import UnicityNostr.Lib.Values
import UnicityNostr.Nametag
import UnicityNostr.Nametag.Encryption
import UnicityNostr.Nametag.Normal
import UnicityNostr.Nip17
import UnicityNostr.Nip17.Authenticity
import UnicityNostr.Nip17.Capacity
import UnicityNostr.Nip17.Delivery
import UnicityNostr.Nip17.Inbox
import UnicityNostr.Nip17.Mailbox
import UnicityNostr.Nip17.Metadata
import UnicityNostr.Nip17.Seal
import UnicityNostr.Reference
import UnicityNostr.Signer
