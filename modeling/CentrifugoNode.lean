import CentrifugoNode.GoStrings
import CentrifugoNode.Channel
import CentrifugoNode.Subscription
import CentrifugoNode.Interleaving
import CentrifugoNode.Control
import CentrifugoNode.Bus
import CentrifugoNode.Cluster
import CentrifugoNode.Gossip
import CentrifugoNode.Publish
import CentrifugoNode.Metrics
import CentrifugoNode.Shutdown
import CentrifugoNode.ShutdownProgress
import CentrifugoNode.Counters
