import CyfsGateway.Bns.AuthoritySets
import CyfsGateway.Bns.Batches
import CyfsGateway.Bns.Delegation
import CyfsGateway.Bns.DocumentHistory
import CyfsGateway.Bns.Integrity
import CyfsGateway.Bns.LineageIsolation
import CyfsGateway.Bns.Queries
import CyfsGateway.Bns.Sequencing
import CyfsGateway.Gateway.Connections
import CyfsGateway.Gateway.ControlTokens
import CyfsGateway.Gateway.DnsResponses
import CyfsGateway.Gateway.ForwardGroups
import CyfsGateway.Gateway.ForwardedFor
import CyfsGateway.Gateway.RoundRobin
import CyfsGateway.Gateway.TunnelBuilders
import CyfsGateway.Indexer.Calldata
import CyfsGateway.Indexer.Pairing
import CyfsGateway.ProcessChain.CallTargets
import CyfsGateway.ProcessChain.Isolation
import CyfsGateway.ProcessChain.Mixing
import CyfsGateway.ProcessChain.Scoping
import CyfsGateway.Rtcp.Authority
import CyfsGateway.Rtcp.Datagrams
import CyfsGateway.Rtcp.Delivery
import CyfsGateway.Rtcp.Replay
import CyfsGateway.Rtcp.Revisions
import CyfsGateway.Rtcp.Shutdown
import CyfsGateway.Sn.Nonces
import CyfsGateway.Sn.Signer
