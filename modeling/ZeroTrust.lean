import ZeroTrust.Common.EnvelopeGrammar
import ZeroTrust.Network.Attacker
import ZeroTrust.Network.Contents
import ZeroTrust.Network.Ending
import ZeroTrust.Network.Identity
import ZeroTrust.Network.LastCopy
import ZeroTrust.Network.Received
import ZeroTrust.Network.RoundTrip
import ZeroTrust.Common.Framing
import ZeroTrust.Common.Logger
import ZeroTrust.Server.Acknowledgement
import ZeroTrust.Server.Blobs
import ZeroTrust.Server.Confinement
import ZeroTrust.Server.Connection
import ZeroTrust.Server.Delivery
import ZeroTrust.Server.Directory
import ZeroTrust.Server.Evidence
import ZeroTrust.Server.ExpiryTiming
import ZeroTrust.Server.FailedUpload
import ZeroTrust.Server.FileContext
import ZeroTrust.Server.Lifecycle
import ZeroTrust.Server.Listing
import ZeroTrust.Server.Oracle
import ZeroTrust.Server.Served
import ZeroTrust.Server.StaleStatus
