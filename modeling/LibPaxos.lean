import LibPaxos.Lib.Table
import LibPaxos.Lib.Voting
import LibPaxos.Lib.Runs
import LibPaxos.Lib.Slots
import LibPaxos.Lib.Bytes
import LibPaxos.Lib.Buffer
import LibPaxos.Lib.Cursor
import LibPaxos.Lib.Outputs
import LibPaxos.Lib.Loops
import LibPaxos.Lib.Scan
import LibPaxos.Lib.Ring
import LibPaxos.Lib.Probing
import LibPaxos.Lib.OpenAddressing
import LibPaxos.Types
import LibPaxos.Messages
import LibPaxos.Quorum
import LibPaxos.Carray
import LibPaxos.Khash
import LibPaxos.KhashFlags
import LibPaxos.KhashTable
import LibPaxos.KhashRehash
import LibPaxos.KhashMap
import LibPaxos.Storage
import LibPaxos.StorageLmdb
import LibPaxos.StorageRefinement
import LibPaxos.Acceptor
import LibPaxos.AcceptorRuns
import LibPaxos.AcceptorDurable
import LibPaxos.StorageKhash
import LibPaxos.AcceptorFailures
import LibPaxos.AcceptorRepeat
import LibPaxos.Proposer
import LibPaxos.ProposerMoves
import LibPaxos.ProposerRuns
import LibPaxos.ProposerValues
import LibPaxos.ProposerBallots
import LibPaxos.ProposerInOrder
import LibPaxos.ProposerTables
import LibPaxos.ProposerOrder
import LibPaxos.ProposerWire
import LibPaxos.ProposerOutbids
import LibPaxos.ProposerTimeouts
import LibPaxos.ProposerAcks
import LibPaxos.Learner
import LibPaxos.LearnerDelivery
import LibPaxos.LearnerChosen
import LibPaxos.LearnerGaps
import LibPaxos.LearnerPhase1
import LibPaxos.LearnerRecovery
import LibPaxos.LearnerOrder
import LibPaxos.LearnerPosition
import LibPaxos.Votes
import LibPaxos.EvPaxos.TypesPack
import LibPaxos.EvPaxos.Peers
import LibPaxos.EvPaxos.Clients
import LibPaxos.EvPaxos.Cluster
import LibPaxos.EvPaxos.Consensus
import LibPaxos.EvPaxos.Agreement
import LibPaxos.EvPaxos.Values
import LibPaxos.EvPaxos.Delivery
import LibPaxos.EvPaxos.Noop
import LibPaxos.EvPaxos.Replica
import LibPaxos.EvPaxos.Evproposer
import LibPaxos.EvPaxos.EvproposerRuns
import LibPaxos.EvPaxos.LoneProposer
import LibPaxos.NetPaxos.MessagePack
import LibPaxos.NetPaxos.Datagrams
import LibPaxos.NetPaxos.Acceptor
import LibPaxos.NetPaxos.Learner
import LibPaxos.NetPaxos.Sequencer
import LibPaxos.NetPaxos.Agreement
import LibPaxos.P4xos.Handlers
import LibPaxos.P4xos.HandlersSound
import LibPaxos.P4xos.Chosen
import LibPaxos.P4xos.Packets
import LibPaxos.P4xos.Leaders
import LibPaxos.Stacks
import LibPaxos.EvPaxos.Deployment
import LibPaxos.EvPaxos.Quiescence
import LibPaxos.EvPaxos.CatchUp
