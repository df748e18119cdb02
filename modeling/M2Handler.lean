import M2Handler.Adt.BulkLoad
import M2Handler.Delivery
import M2Handler.Example.HttpHandlers
import M2Handler.Example.StaleNode
import M2Handler.Handler.Independence
import M2Handler.Handler.Language
import M2Handler.Handler.Notices
import M2Handler.Handler.Ranges
import M2Handler.Reporting
import M2Handler.Websocket.Accept
import M2Handler.Websocket.Allocation
import M2Handler.Websocket.Assertions
import M2Handler.Websocket.Broadcast
import M2Handler.Websocket.Concurrency
import M2Handler.Websocket.Encoding
import M2Handler.Websocket.Handshake
import M2Handler.Websocket.Incoming
import M2Handler.Websocket.Integrity
import M2Handler.Websocket.Masking
import M2Handler.Websocket.Nearest
import M2Handler.Websocket.Received
import M2Handler.Websocket.Setters
import M2Handler.Websocket.Sweeping
import M2Handler.Websocket.WireFormat
