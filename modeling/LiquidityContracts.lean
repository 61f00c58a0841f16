import LiquidityContracts.Accounting.CarryOver
import LiquidityContracts.Accounting.ConstantProduct
import LiquidityContracts.Bonding.Contract
import LiquidityContracts.Bonding.Discount
import LiquidityContracts.Bonding.Ownership
import LiquidityContracts.Bonding.Paging
import LiquidityContracts.Bonding.Unbonding
import LiquidityContracts.CosmWasm.Run
import LiquidityContracts.Fanfury.Bonds
import LiquidityContracts.Fanfury.Solvency
import LiquidityContracts.Fanfury.Staking
import LiquidityContracts.Gaming.Awards
import LiquidityContracts.Gaming.Counter
import LiquidityContracts.Gaming.Listings
import LiquidityContracts.Gaming.PaidOnce
import LiquidityContracts.Gaming.PoolType
import LiquidityContracts.Gaming.Rake
import LiquidityContracts.Gaming.RefundQuery
import LiquidityContracts.Gaming.RewardQuery
import LiquidityContracts.Gaming.Swaps
import LiquidityContracts.Gaming.TeamCount
import LiquidityContracts.Staking.Access
import LiquidityContracts.Staking.Audit
import LiquidityContracts.Staking.Backing
import LiquidityContracts.Staking.Batching
import LiquidityContracts.Staking.Claims
import LiquidityContracts.Staking.Cycle
import LiquidityContracts.Staking.Listings
import LiquidityContracts.Staking.Maturity
import LiquidityContracts.Staking.Pot
import LiquidityContracts.Staking.Retention
import LiquidityContracts.Staking.Schedule
import LiquidityContracts.Staking.Totals
import LiquidityContracts.Staking.WellFormed
import LiquidityContracts.Staking.Winners
import LiquidityContracts.Staking.Withdrawal
import LiquidityContracts.Swap.Contract
import LiquidityContracts.Swap.Redemption
import LiquidityContracts.Swap.Rounding
import LiquidityContracts.Swap.Shortfall
import LiquidityContracts.Swap.Value
import LiquidityContracts.Token.Enumerable
import LiquidityContracts.Token.Invariants
import LiquidityContracts.Token.Marketing
import LiquidityContracts.Token.Refinement
