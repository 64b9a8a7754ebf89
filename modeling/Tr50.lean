import Tr50.Mqtt.Header
import Tr50.Mqtt.Publish
import Tr50.Mqtt.Build
import Tr50.Mqtt.Oversize
import Tr50.Mqtt.Recv
import Tr50.Mqtt.Packet
import Tr50.Mqtt.Traced
import Tr50.Mqtt.Resources
import Tr50.Mqtt.Client
import Tr50.Mqtt.Qos
import Tr50.Mqtt.Async
import Tr50.Mqtt.SendFailure
import Tr50.Mqtt.Acknowledge
import Tr50.Mqtt.States
import Tr50.Mqtt.Released
import Tr50.Mqtt.Undone
import Tr50.Mqtt.Links
import Tr50.Mqtt.Handshake
import Tr50.Mqtt.Ids
import Tr50.Util.Json
import Tr50.Api.Message
import Tr50.Api.Pending
import Tr50.Api.Client
import Tr50.Api.Requests
import Tr50.Api.Submit
import Tr50.Api.Deadlock
import Tr50.Api.Ids
import Tr50.Api.Mailbox
import Tr50.Api.Outstanding
import Tr50.Api.Notified
import Tr50.Api.Linked
import Tr50.Api.Sweep
import Tr50.Api.Resubmit
import Tr50.Api.LinkedClient
import Tr50.Api.Shown
import Tr50.Api.Owner
import Tr50.Worker.Upload
import Tr50.Worker.Download
import Tr50.Mqtt.Table
import Tr50.Mqtt.Acks
import Tr50.Mqtt.Turns
import Tr50.Mqtt.Heartbeat
import Tr50.Machinery.Observed
import Tr50.Mqtt.Unacked
import Tr50.Mqtt.Keepalive
import Tr50.Api.Exchange
import Tr50.Api.Dangling
import Tr50.Api.Handle
import Tr50.Api.Dispatch
import Tr50.Api.Payload
import Tr50.Machinery.Slots
import Tr50.At.Storage
import Tr50.At.RoundTrip
import Tr50.At.Main
import Tr50.Mqtt.Expired
import Tr50.Util.Blob
import Tr50.Util.Compress
import Tr50.Api.Ratio
import Tr50.Worker.Response
import Tr50.Mqtt.Outage
import Tr50.Api.Traffic
import Tr50.Util.Send
import Tr50.Worker.Reader
import Tr50.Util.Base64
import Tr50.Util.Socks5
import Tr50.Util.Target
import Tr50.Util.Number
import Tr50.Util.Hexdump
import Tr50.Api.Command
import Tr50.Util.Reparse
import Tr50.Api.Waits
import Tr50.At.Exec
