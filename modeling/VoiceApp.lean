import VoiceApp.Protocol.Waiting
import VoiceApp.Protocol.Normalisation
import VoiceApp.Management.Introductions
import VoiceApp.Management.LoginResponse
import VoiceApp.Management.Identity
import VoiceApp.Management.Atomicity
import VoiceApp.Management.Delivery
import VoiceApp.Management.Cleanup
import VoiceApp.Management.RecordReuse
import VoiceApp.Voice.Recipients
import VoiceApp.Voice.Revocation
import VoiceApp.Voice.Participation
import VoiceApp.Voice.AddressCache
import VoiceApp.Presence.Rest
import VoiceApp.Desktop.Hearing
import VoiceApp.Desktop.ChatHistory
import VoiceApp.Sdk.Reconnect
import VoiceApp.Sdk.Listeners
import VoiceApp.Sdk.Datagrams
import VoiceApp.System.Correlation
import VoiceApp.System.Segmentation
import VoiceApp.System.VoiceAuth
import VoiceApp.Management.Sessions
import VoiceApp.Sdk.ApiClient
import VoiceApp.System.Acceptance
import VoiceApp.Management.LoginAnnouncement
import VoiceApp.System.Muting
import VoiceApp.Protocol.Finality
import VoiceApp.System.Draining
import VoiceApp.Sdk.Chunking
import VoiceApp.Sdk.VoiceStream
import VoiceApp.Desktop.Login
import VoiceApp.Desktop.SavedAddress
import VoiceApp.Desktop.StreamConfig
import VoiceApp.Desktop.NotificationResample
import VoiceApp.Desktop.ConfigState
import VoiceApp.Sdk.LiveRequests
import VoiceApp.System.VoiceLogin
import VoiceApp.Desktop.Streams
import VoiceApp.Desktop.Settings
import VoiceApp.Desktop.Speakers
import VoiceApp.System.Agreement
import VoiceApp.System.Attribution
import VoiceApp.Management.Authorship
import VoiceApp.Sdk.Spoken
import VoiceApp.System.VoiceSpoken
import VoiceApp.System.Conversation
