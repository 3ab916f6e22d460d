import NodemFirmware.Lib.Transition
import NodemFirmware.Config.Durable
import NodemFirmware.Hub75.RoundTrip
import NodemFirmware.Hub75.Reads
import NodemFirmware.Hub75.Changes
import NodemFirmware.Hub75.Believed
import NodemFirmware.Hub75.Stale
import NodemFirmware.Oled.Flush
import NodemFirmware.Upload.Ota
import NodemFirmware.Upload.Runtime
import NodemFirmware.Cloud.Credentials
import NodemFirmware.Cloud.Sockets
import NodemFirmware.Cloud.Link
import NodemFirmware.Cloud.Channel
import NodemFirmware.Cloud.Pair
import NodemFirmware.Cloud.Mailbox
import NodemFirmware.Cloud.Pdn
import NodemFirmware.Nodem.Popup
import NodemFirmware.Nodem.Commands
import NodemFirmware.Nodem.Task
import NodemFirmware.Nodem.Axis
import NodemFirmware.Hub75.Chain
import NodemFirmware.Oled.Stored
import NodemFirmware.Nodem.Stored
import NodemFirmware.Cloud.Receive
import NodemFirmware.Vm.Time
import NodemFirmware.Hub75.Overload
import NodemFirmware.Hub75.Brightness
import NodemFirmware.Cloud.Response
import NodemFirmware.Hub75.Skip
import NodemFirmware.Config.Listing
import NodemFirmware.Cloud.Status
import NodemFirmware.Cloud.Provision
import NodemFirmware.Cloud.Stat
import NodemFirmware.Hub75.Grey
import NodemFirmware.Hub75.Chip
import NodemFirmware.Control.Register
import NodemFirmware.Control.Backup
import NodemFirmware.Control.Replies
import NodemFirmware.Oled.Shown
import NodemFirmware.Nodem.Wakes
import NodemFirmware.Cloud.Outgoing
import NodemFirmware.Hub75.Palette
