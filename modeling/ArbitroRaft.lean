import ArbitroRaft.Arena.Refinement
import ArbitroRaft.Client.Ownership
import ArbitroRaft.Cluster.Election
import ArbitroRaft.Dispatch.Leftover
import ArbitroRaft.Election.Delivered
import ArbitroRaft.Election.Sanction
import ArbitroRaft.Machine.Gapless
import ArbitroRaft.Machine.Persist
import ArbitroRaft.Membership.Learners
import ArbitroRaft.Membership.Rollback
import ArbitroRaft.Read.Freshness
import ArbitroRaft.Replication.Cursors
import ArbitroRaft.Replication.HeartbeatBatch
import ArbitroRaft.Replication.Merge
import ArbitroRaft.Replication.StaleAnswers
import ArbitroRaft.RunLoop.Writers
import ArbitroRaft.Snapshot.Compaction
import ArbitroRaft.Snapshot.Success
import ArbitroRaft.Snapshot.Votes
import ArbitroRaft.Transport.Abuse
import ArbitroRaft.Transport.Backlog
